import PromptPack.Budget.Advisory
import PromptPack.Budget.Balance
import PromptPack.Model.Registry
import PromptPack.Packing.Bundle
import PromptPack.Packing.Prepare

/-! A whole packing: the target profile, the files, their balance under the ceiling, the bundle, and
how the result compares with the ceiling. -/

namespace PromptPack

/-- A packing ends with a response and its advisory, or with the text of the bundler's failure. -/
structure PackOutcome where
  balance : Balance
  warnings : List String
  bundled : Except String (PackResponse × Advisory)

namespace PackOutcome

def response? (outcome : PackOutcome) : Option PackResponse := outcome.bundled.toOption.map (·.1)

def advisory? (outcome : PackOutcome) : Option Advisory := outcome.bundled.toOption.map (·.2)

def error? (outcome : PackOutcome) : Option String :=
  match outcome.bundled with
  | .error text => some text
  | .ok _ => none

end PackOutcome

/-- The outcome, and what was asked of the oracle and the bundler on the way. -/
structure PackRun where
  outcome : PackOutcome
  oracleCall : Option OracleCall
  request : BundleRequest

namespace Packing

/-- The profile that the configuration names, its own profiles layered over the registry. -/
def targetProfile (registry : Registry) (config : PackConfig) : Except Fault Profile := do
  let registry ← registry.layer config.profiles
  registry.get config.modelProfile

def wantedCeiling : Value → Except Fault (Option Number)
  | .null => .ok none
  | value => (PackConfig.number value).map some

/-- The ceiling: the one of the configuration, else the one of the profile, else derived. -/
def ceilingFor (config : PackConfig) (profile : Profile) : Except Fault Int := do
  let wanted :=
    match config.maxTokensPerFile with
    | .null => profile.tokensPerFile
    | value => value
  Budget.resolveCeiling (← wantedCeiling wanted) profile.contextWindow

def packedNotice (request : BundleRequest) (response : PackResponse) : String :=
  s!"Packed {request.files.length} files into {response.packs.length} pack(s), " ++
    s!"{response.totalTokens} tokens"

def advisoryWarning (advisory : Advisory) : List String :=
  if advisory.level = .ok then [] else [advisory.message]

def conclude (balance : Balance) (ceiling : Int) (request : BundleRequest) :
    Except Failure PackResponse → Traced (Except Fault PackOutcome)
  | .error failure => do
    Traced.write .error .packing s!"Packing failed: {failure.text}"
    return .ok ⟨balance, balance.warnings, .error failure.text⟩
  | .ok response =>
    let advisory := do
      let packs ← PackConfig.number request.numPacks
      Advisory.ofPacks (.int response.totalTokens) packs (.int ceiling)
    match advisory with
    | .error fault => pure (.error fault)
    | .ok advisory => do
      Traced.write .info .packing (packedNotice request response)
      return .ok ⟨balance, balance.warnings ++ advisoryWarning advisory, .ok (response, advisory)⟩

def balanced (config : PackConfig) (profile : Profile) (files : List PackFile) :
    Except Fault (Int × Balance) := do
  let ceiling ← ceilingFor config profile
  return (ceiling, ← Budget.balance files ceiling)

def packWith {σ : Type} (oracle : Option Oracle) (bundler : BundlerWith σ) (registry : Registry)
    (selected : List SourceFile) (contents : Table String (Option String)) (config : PackConfig)
    (tokenMap : Table String Int) (s : σ) : Traced (Except Fault PackRun × σ) :=
  match targetProfile registry config with
  | .error fault => pure (.error fault, s)
  | .ok profile => do
    let prepared ← prepareFiles oracle selected contents config.optimization tokenMap
    match balanced config profile prepared.files with
    | .error fault => return (.error fault, s)
    | .ok (ceiling, balance) =>
      let request : BundleRequest :=
        ⟨balance.files, config.numPacks, config.outputFormat, profile.id⟩
      let (answer, s) := bundler request s
      let outcome ← conclude balance ceiling request answer
      return (outcome.map fun outcome => ⟨outcome, prepared.call, request⟩, s)

def pack (oracle : Option Oracle) (bundler : Bundler) (registry : Registry)
    (selected : List SourceFile) (contents : Table String (Option String)) (config : PackConfig)
    (tokenMap : Table String Int) : Traced (Except Fault PackRun) := do
  let (run, _) ← packWith oracle bundler.stateless registry selected contents config tokenMap ()
  return run

end Packing

end PromptPack
