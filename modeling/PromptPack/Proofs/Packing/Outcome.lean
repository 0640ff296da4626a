import PromptPack.Packing.Pack
import PromptPack.Proofs.Budget.Balance
import PromptPack.Proofs.Budget.Ceiling
import PromptPack.Proofs.Document.Plain
import PromptPack.Proofs.Transform.Subsequence

/-! How a packing ends once its profile and its ceiling are known: the bundler has one request, and
what it answers decides the outcome. Main statement: `packWith_outcome`. -/

namespace PromptPack

structure PackOutcome.Reports (outcome : PackOutcome) (balance : Balance) (packs ceiling : Int)
    (answer : Except Failure PackResponse) : Prop where
  files : outcome.balance = balance
  either : outcome.response?.isSome = !outcome.error?.isSome
  failed : ∀ failure, answer = .error failure →
    outcome.response? = none ∧ outcome.advisory? = none ∧ outcome.warnings = balance.warnings ∧
      ∃ text, outcome.error? = some text ∧ (failure.kind ≠ "" → text ≠ "") ∧
        text = if failure.message = "" then failure.kind else failure.message
  returned : ∀ response, answer = .ok response →
    outcome.response? = some response ∧ outcome.error? = none ∧
      ∃ advisory,
        Advisory.ofPacks (.int response.totalTokens) (.int packs) (.int ceiling) = .ok advisory ∧
        outcome.advisory? = some advisory ∧
        outcome.warnings =
          balance.warnings ++ if advisory.level = .ok then [] else [advisory.message]

namespace Packing

variable {σ : Type} {oracle : Option Oracle} {bundler : BundlerWith σ} {registry : Registry}
  {selected : List SourceFile} {contents : Table String (Option String)} {config : PackConfig}
  {tokenMap : Table String Int} {profile : Profile} {ceiling packs : Int} {balance : Balance}
  {request : BundleRequest} {answer : Except Failure PackResponse}

theorem exists_balance_prepareFiles (oracle : Option Oracle) (config : PackConfig) (ceiling : Int)
    (counts : ∀ file ∈ selected, ∀ count ∈ (tokenMap.get? file.path).or file.explicitTokenCount,
      count < (10 ^ 300 : Nat))
    (lengths : ∀ file ∈ selected, (textAt contents file).length < 10 ^ 300) :
    ∃ balance, Budget.balance (prepareFiles oracle selected contents config.optimization
      tokenMap).value.files ceiling = .ok balance := by
  apply Budget.exists_balance
  · intro packed member
    obtain ⟨file, listed, known, _⟩ := exists_of_mem_prepareFiles member
    rw [known]
    exact counts file listed
  · intro packed member _
    obtain ⟨file, listed, _, shorter⟩ := exists_of_mem_prepareFiles member
    have short := shorter.length_le
    rw [String.length_toList, String.length_toList] at short
    exact Nat.lt_of_le_of_lt short (lengths file listed)

theorem text_ne_empty {failure : Failure} (named : failure.kind ≠ "") : failure.text ≠ "" := by
  unfold Failure.text
  split
  · exact named
  · next given => simpa using given

theorem exists_ofInt?_of_ceilingFor (limited : ceilingFor config profile = .ok ceiling) :
    ∃ y, Binary64.ofInt? (max 1 ceiling) = some y := by
  obtain ⟨_, _, resolved⟩ := bind_eq_ok.mp limited
  exact Budget.exists_ofInt?_of_resolveCeiling resolved

theorem conclude_reports (balance : Balance) (request : BundleRequest)
    (limited : ∃ y, Binary64.ofInt? (max 1 ceiling) = some y)
    (integer : request.numPacks.toNumber? = some (.int packs))
    (totals : ∀ response, answer = .ok response → response.totalTokens.natAbs < 10 ^ 300) :
    ∃ outcome, (conclude balance ceiling request answer).value = .ok outcome ∧
      outcome.Reports balance packs ceiling answer := by
  cases answer with
  | error failure =>
    refine ⟨_, rfl, rfl, rfl, ?_, ?_⟩
    · rintro _ ⟨⟩
      refine ⟨rfl, rfl, rfl, failure.text, rfl, text_ne_empty, ?_⟩
      simp [Failure.text]
    · rintro _ ⟨⟩
  | ok response =>
    have small : response.totalTokens.natAbs < 2 ^ 1000 :=
      Nat.lt_trans (totals response rfl) (by decide +kernel)
    obtain ⟨y, limit⟩ := limited
    obtain ⟨advisory, compared⟩ := Advisory.exists_ofPacks small limit
    have made : (do
        let packs ← PackConfig.number request.numPacks
        Advisory.ofPacks (.int response.totalTokens) packs (.int ceiling)) = .ok advisory := by
      rw [PackConfig.number, integer]
      exact compared
    unfold conclude
    dsimp only
    rw [made]
    refine ⟨_, rfl, rfl, rfl, ?_, ?_⟩
    · rintro _ ⟨⟩
    · rintro _ ⟨⟩
      exact ⟨rfl, rfl, advisory, compared, rfl, rfl⟩

theorem balanced_eq (limited : ceilingFor config profile = .ok ceiling) (files : List PackFile) :
    balanced config profile files = (Budget.balance files ceiling).map fun b => (ceiling, b) := by
  rw [balanced, limited]
  change (Budget.balance files ceiling >>= fun b => pure (ceiling, b)) = _
  cases Budget.balance files ceiling <;> rfl

theorem packWith_of_balance {s : σ} (resolved : targetProfile registry config = .ok profile)
    (limited : ceilingFor config profile = .ok ceiling)
    (arranged : Budget.balance (prepareFiles oracle selected contents config.optimization
      tokenMap).value.files ceiling = .ok balance) :
    let prepared := (prepareFiles oracle selected contents config.optimization tokenMap).value
    let request : BundleRequest := ⟨balance.files, config.numPacks, config.outputFormat, profile.id⟩
    let answered := bundler request s
    (packWith oracle bundler registry selected contents config tokenMap s).value =
      (((conclude balance ceiling request answered.1).value.map
        fun outcome => ⟨outcome, prepared.call, request⟩), answered.2) := by
  unfold packWith
  rw [resolved]
  dsimp only [Traced.value_bind]
  rw [balanced_eq limited, arranged]
  rfl

theorem resolved_of_packWith {s : σ} {run : PackRun}
    (packed : (packWith oracle bundler registry selected contents config tokenMap s).value.1 =
      .ok run) :
    ∃ profile ceiling, targetProfile registry config = .ok profile ∧
      ceilingFor config profile = .ok ceiling := by
  cases resolved : targetProfile registry config with
  | error fault =>
    rw [packWith, resolved] at packed
    cases packed
  | ok profile =>
    cases limited : ceilingFor config profile with
    | error fault =>
      rw [packWith, resolved] at packed
      dsimp only [Traced.value_bind] at packed
      rw [balanced, limited] at packed
      cases packed
    | ok ceiling => exact ⟨profile, ceiling, rfl, limited⟩

/-- Once the profile and the ceiling are known, the bundler has exactly one request, so its state goes
on by one step, and a known count that fits a double lets the outcome report its answer. -/
theorem packWith_outcome (oracle : Option Oracle) (bundler : BundlerWith σ) (registry : Registry)
    (selected : List SourceFile) (contents : Table String (Option String)) (config : PackConfig)
    (tokenMap : Table String Int) (s : σ)
    (resolved : targetProfile registry config = .ok profile)
    (limited : ceilingFor config profile = .ok ceiling)
    (integer : config.numPacks.toNumber? = some (.int packs))
    (counts : ∀ file ∈ selected, ∀ count ∈ (tokenMap.get? file.path).or file.explicitTokenCount,
      count < (10 ^ 300 : Nat))
    (lengths : ∀ file ∈ selected, (textAt contents file).length < 10 ^ 300)
    (totals : ∀ request s response, (bundler request s).1 = .ok response →
      response.totalTokens.natAbs < 10 ^ 300) :
    let prepared := (prepareFiles oracle selected contents config.optimization tokenMap).value
    ∃ balance outcome, Budget.balance prepared.files ceiling = .ok balance ∧
      let request : BundleRequest :=
        ⟨balance.files, config.numPacks, config.outputFormat, profile.id⟩
      (packWith oracle bundler registry selected contents config tokenMap s).value =
        (.ok ⟨outcome, prepared.call, request⟩, (bundler request s).2) ∧
      outcome.Reports balance packs ceiling (bundler request s).1 := by
  dsimp only
  obtain ⟨balance, arranged⟩ := exists_balance_prepareFiles oracle config ceiling counts lengths
  have double := exists_ofInt?_of_ceilingFor limited
  let request : BundleRequest := ⟨balance.files, config.numPacks, config.outputFormat, profile.id⟩
  obtain ⟨outcome, concluded, reports⟩ :=
    conclude_reports balance request double integer (totals request s)
  refine ⟨balance, outcome, arranged, ?_, reports⟩
  rw [packWith_of_balance resolved limited arranged, concluded]
  rfl

/-- Gives the same answer each time and keeps the requests. -/
def recording (answer : Except Failure PackResponse) : BundlerWith (List BundleRequest) :=
  fun request requests => (answer, requests ++ [request])

def opus : Profile := .known "claude-opus-4" "Anthropic Claude (Opus 4)" 200000 "claude"

theorem targetProfile_opus (own : config.profiles = [])
    (model : config.modelProfile = .text "claude-opus-4") :
    targetProfile .defaults config = .ok opus := by
  have layered : Registry.defaults.layer [] = .ok .defaults := rfl
  rw [targetProfile, own, model, layered]
  change Registry.defaults.get (.text "claude-opus-4") = .ok opus
  simp [Registry.get, Registry.find?, Registry.defaults, Profile.known, Value.same_text,
    Value.isKey, opus]

theorem ceilingFor_default : ceilingFor {} opus = .ok 16000 := by decide +kernel

def largeFile : SourceFile where
  path := "src/a.py"
  explicitTokenCount := some 25000

theorem largeFile_counts : ∀ file ∈ [largeFile], ∀ count ∈
    (Table.get? ([] : Table String Int) file.path).or file.explicitTokenCount,
    count < (10 ^ 300 : Nat) := by
  decide +kernel

theorem largeFile_lengths : ∀ file ∈ [largeFile], (textAt [] file).length < 10 ^ 300 := by
  decide +kernel

theorem packWith_outcome_largeFile :
    (∃ balance outcome call request,
      (packWith none (recording (.error ⟨"ValueError", ""⟩)) .defaults [largeFile] [] {} [] []).value =
        (.ok ⟨outcome, call, request⟩, [request]) ∧
      outcome.Reports balance 1 16000 (.error ⟨"ValueError", ""⟩) ∧
      outcome.error? = some "ValueError") ∧
    ∃ balance outcome call request,
      (packWith none (recording (.ok ⟨[], 40000⟩)) .defaults [largeFile] [] {} [] []).value =
        (.ok ⟨outcome, call, request⟩, [request]) ∧
      outcome.Reports balance 1 16000 (.ok ⟨[], 40000⟩) ∧
      outcome.response? = some ⟨[], 40000⟩ := by
  constructor
  · obtain ⟨balance, outcome, _, packed, reports⟩ :=
      packWith_outcome none (recording (.error ⟨"ValueError", ""⟩)) .defaults [largeFile] [] {} [] []
        (targetProfile_opus rfl rfl) ceilingFor_default rfl largeFile_counts largeFile_lengths
        (by rintro _ _ _ ⟨⟩)
    obtain ⟨_, _, _, text, error, _, rfl⟩ := reports.failed _ rfl
    exact ⟨balance, outcome, _, _, packed, reports, error⟩
  · obtain ⟨balance, outcome, _, packed, reports⟩ :=
      packWith_outcome none (recording (.ok ⟨[], 40000⟩)) .defaults [largeFile] [] {} [] []
        (targetProfile_opus rfl rfl) ceilingFor_default rfl largeFile_counts largeFile_lengths
        (by rintro _ _ _ ⟨⟩; decide +kernel)
    exact ⟨balance, outcome, _, _, packed, reports, (reports.returned _ rfl).1⟩

theorem packWith_of_fault {s : σ} {fault : Fault}
    (resolved : targetProfile registry config = .ok profile)
    (limited : ceilingFor config profile = .ok ceiling)
    (unbalanced : Budget.balance (prepareFiles oracle selected contents config.optimization
      tokenMap).value.files ceiling = .error fault) :
    (packWith oracle bundler registry selected contents config tokenMap s).value =
      (.error fault, s) := by
  unfold packWith
  rw [resolved]
  dsimp only [Traced.value_bind]
  rw [balanced_eq limited, unbalanced]
  rfl

def hugeFile : SourceFile where
  path := "src/a.py"
  explicitTokenCount := some (10 ^ 400)

theorem packWith_overflows :
    targetProfile .defaults {} = .ok opus ∧ ceilingFor {} opus = .ok 16000 ∧
      (packWith none (recording (.ok ⟨[], 0⟩)) .defaults [hugeFile] [] {} [] []).value =
        (.error .outOfRange, []) := by
  have unbalanced : Budget.balance (prepareFiles none [hugeFile] [] {} []).value.files 16000 =
      .error .outOfRange := by
    decide +kernel
  have resolved : targetProfile .defaults {} = .ok opus := targetProfile_opus rfl rfl
  exact ⟨resolved, ceilingFor_default, packWith_of_fault resolved ceilingFor_default unbalanced⟩

end Packing

end PromptPack
