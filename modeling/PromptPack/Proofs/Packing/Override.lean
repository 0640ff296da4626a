import PromptPack.Proofs.Packing.Validation

/-! A configured ceiling that is not positive. It does not count, but it is not the same as none: the
budget of the profile is asked for only where nothing is configured. So the two packings agree
exactly where that budget changes nothing. Main statement: `packWith_nonpositive`. -/

namespace PromptPack

def Profile.FollowsWindow (profile : Profile) : Prop :=
  Packing.ceilingFor {} profile = Budget.deriveCeiling profile.contextWindow

def Profile.Unbudgeted (profile : Profile) : Prop :=
  profile.tokensPerFile = .null ∨
    ∃ budget, profile.tokensPerFile.toNumber? = some budget ∧ budget.le (.int 0) = true

theorem Profile.Unbudgeted.followsWindow {profile : Profile} (unbudgeted : profile.Unbudgeted) :
    profile.FollowsWindow := by
  unfold FollowsWindow Packing.ceilingFor
  dsimp only
  rcases unbudgeted with none | ⟨budget, number, low⟩
  · rw [none]
    rfl
  · rw [Packing.wantedCeiling_of_number number]
    exact Budget.resolveCeiling_of_le low

namespace Packing

variable {σ : Type} {oracle : Option Oracle} {bundler : BundlerWith σ} {registry : Registry}
  {selected : List SourceFile} {contents : Table String (Option String)} {config : PackConfig}
  {tokenMap : Table String Int} {profile : Profile} {ceiling : Int} {balance : Balance}
  {request : BundleRequest} {answer : Except Failure PackResponse} {run : PackRun} {s : σ}

theorem balance_of_conclude {outcome : PackOutcome}
    (concluded : (conclude balance ceiling request answer).value = .ok outcome) :
    outcome.balance = balance := by
  cases answer with
  | error failure =>
    cases concluded
    rfl
  | ok response =>
    unfold conclude at concluded
    dsimp only at concluded
    split at concluded
    · cases concluded
    · cases concluded
      rfl

/-- The configured ceiling is read only where the ceiling of a packing is resolved. -/
theorem packWith_eq_of_ceilingFor {value other : Value}
    (same : ∀ profile, targetProfile registry config = .ok profile →
      ceilingFor { config with maxTokensPerFile := value } profile =
        ceilingFor { config with maxTokensPerFile := other } profile) :
    packWith oracle bundler registry selected contents
        { config with maxTokensPerFile := value } tokenMap s =
      packWith oracle bundler registry selected contents
        { config with maxTokensPerFile := other } tokenMap s := by
  have target (value : Value) :
      targetProfile registry { config with maxTokensPerFile := value } =
        targetProfile registry config := rfl
  unfold packWith
  rw [target value, target other]
  cases resolved : targetProfile registry config with
  | error fault => rfl
  | ok profile =>
    have limited (files : List PackFile) :
        balanced { config with maxTokensPerFile := value } profile files =
          balanced { config with maxTokensPerFile := other } profile files := by
      rw [balanced, balanced, same profile resolved]
    simp only [limited]

theorem ceilingFor_of_packWith (resolved : targetProfile registry config = .ok profile)
    (packed : (packWith oracle bundler registry selected contents config tokenMap s).value.1 =
      .ok run) :
    ceilingFor config profile = .ok run.outcome.balance.ceiling := by
  obtain ⟨_, ceiling, found, limited⟩ := resolved_of_packWith packed
  obtain rfl := Except.ok.inj (found.symm.trans resolved)
  cases arranged : Budget.balance (prepareFiles oracle selected contents config.optimization
      tokenMap).value.files ceiling with
  | error fault =>
    rw [packWith_of_fault resolved limited arranged] at packed
    cases packed
  | ok balance =>
    rw [packWith_of_balance resolved limited arranged] at packed
    obtain ⟨outcome, concluded, rfl⟩ := map_eq_ok.mp packed
    obtain ⟨_, _, source⟩ := bind_eq_ok.mp limited
    have positive := Budget.one_le_of_resolveCeiling source
    rw [balance_of_conclude concluded, Budget.ceiling_of_balance arranged, max_eq_right positive]
    exact limited

theorem ceilingFor_of_nonpositive {value : Value} {wanted : Number}
    (number : value.toNumber? = some wanted) (low : wanted.le (.int 0) = true) (profile : Profile) :
    ceilingFor { config with maxTokensPerFile := value } profile =
      Budget.deriveCeiling profile.contextWindow := by
  rw [ceilingFor_of_number number]
  exact Budget.resolveCeiling_of_le low

theorem packWith_eq_of_followsWindow {value : Value} {wanted : Number}
    (number : value.toNumber? = some wanted) (low : wanted.le (.int 0) = true)
    (resolved : targetProfile registry config = .ok profile) (follows : profile.FollowsWindow) :
    packWith oracle bundler registry selected contents
        { config with maxTokensPerFile := value } tokenMap s =
      packWith oracle bundler registry selected contents
        { config with maxTokensPerFile := .null } tokenMap s := by
  apply packWith_eq_of_ceilingFor
  intro other again
  obtain rfl := Except.ok.inj (resolved.symm.trans again)
  exact (ceilingFor_of_nonpositive number low profile).trans follows.symm

/-- How a packing whose configured ceiling is not positive compares with one that has none
configured: the same run to the last effect, or never an outcome under the same ceiling. -/
structure Compares (profile : Profile) (overridden unset : Traced (Except Fault PackRun × σ)) :
    Prop where
  unbudgeted : profile.Unbudgeted → overridden = unset
  same : profile.FollowsWindow → overridden = unset
  derived : ∀ run, overridden.value.1 = .ok run →
    Budget.deriveCeiling profile.contextWindow = .ok run.outcome.balance.ceiling
  own : ∀ run, unset.value.1 = .ok run →
    ceilingFor {} profile = .ok run.outcome.balance.ceiling
  differ : ¬ profile.FollowsWindow → ∀ run other, overridden.value.1 = .ok run →
    unset.value.1 = .ok other → run.outcome.balance.ceiling ≠ other.outcome.balance.ceiling

/-- A configured ceiling that is not positive is ignored for every profile without a positive budget
of its own. Any other budget is ignored along with it. -/
theorem packWith_nonpositive (oracle : Option Oracle) (bundler : BundlerWith σ)
    (registry : Registry) (selected : List SourceFile) (contents : Table String (Option String))
    (config : PackConfig) (tokenMap : Table String Int) (s : σ) {value : Value} {wanted : Number}
    (number : value.toNumber? = some wanted) (low : wanted.le (.int 0) = true) :
    let overridden := packWith oracle bundler registry selected contents
      { config with maxTokensPerFile := value } tokenMap s
    let unset := packWith oracle bundler registry selected contents
      { config with maxTokensPerFile := .null } tokenMap s
    (∀ fault, targetProfile registry config = .error fault → overridden = unset) ∧
      ∀ profile, targetProfile registry config = .ok profile →
        Compares profile overridden unset := by
  constructor
  · intro fault refused
    apply packWith_eq_of_ceilingFor
    intro profile resolved
    cases refused.symm.trans resolved
  · intro profile resolved
    have derived (run) (packed : (packWith oracle bundler registry selected contents
        { config with maxTokensPerFile := value } tokenMap s).value.1 = .ok run) :
        Budget.deriveCeiling profile.contextWindow = .ok run.outcome.balance.ceiling := by
      rw [← ceilingFor_of_nonpositive number low profile]
      exact ceilingFor_of_packWith resolved packed
    have own (run) (packed : (packWith oracle bundler registry selected contents
        { config with maxTokensPerFile := .null } tokenMap s).value.1 = .ok run) :
        ceilingFor {} profile = .ok run.outcome.balance.ceiling := by
      change ceilingFor { config with maxTokensPerFile := .null } profile = _
      exact ceilingFor_of_packWith resolved packed
    refine ⟨fun unbudgeted => ?_, packWith_eq_of_followsWindow number low resolved, derived, own, ?_⟩
    · exact packWith_eq_of_followsWindow number low resolved unbudgeted.followsWindow
    · intro apart run other first second agree
      apply apart
      rw [Profile.FollowsWindow, own other second, derived run first, agree]

/-- A known model has no budget, so a negative ceiling changes nothing. -/
theorem packWith_nonpositive_largeFile :
    (Value.int (-4)).toNumber? = some (.int (-4)) ∧ (Number.int (-4)).le (.int 0) = true ∧
      packWith none (recording (.ok ⟨[], 40000⟩)) .defaults [largeFile] []
          { maxTokensPerFile := .int (-4) } [] [] =
        packWith none (recording (.ok ⟨[], 40000⟩)) .defaults [largeFile] [] {} [] [] := by
  have low : (Number.int (-4)).le (.int 0) = true := by decide
  obtain ⟨_, compares⟩ := packWith_nonpositive none (recording (.ok ⟨[], 40000⟩)) .defaults
    [largeFile] [] {} [] [] (rfl : (Value.int (-4)).toNumber? = some (.int (-4))) low
  exact ⟨rfl, low, (compares opus (targetProfile_opus rfl rfl)).unbudgeted (.inl rfl)⟩

def tiny : Profile where
  id := .text "tiny"
  name := .text "Tiny"
  contextWindow := .int 10000
  tokensPerFile := .int 1

def packTiny (configured : Value) : Except Fault (List String × Int) :=
  (packWith none (recording (.ok ⟨[], 1⟩)) ⟨[tiny]⟩ [{ path := "a.ts" }]
    [("a.ts", some "abcdefgh")] { modelProfile := .text "tiny", maxTokensPerFile := configured }
    [] []).value.1.map fun run =>
      (run.request.files.map (·.path), run.outcome.balance.ceiling)

theorem packTiny_zero :
    packTiny (.int 0) = .ok (["a.ts"], 4000) ∧
      packTiny .null = .ok (["a.part-1-of-2.ts", "a.part-2-of-2.ts"], 1) := by
  decide +kernel

end Packing

end PromptPack
