import PromptPack.Packing.Pack
import PromptPack.Proofs.Model.Registration

/-! Profiles from a configuration on top of those of a registry: which of them an id finds, in which
order they are listed, and what a document that is refused stops. Main statement: `layer_documents`. -/

namespace PromptPack.Registry

open Packing (packWith targetProfile)

/-- The profiles that are layered win over the registered ones, and the last over the ones in front
of it; an id that is neither layered nor registered finds what stands under the first one. The first
document that is refused ends the layering, and a packing before it asks the oracle or the bundler. -/
theorem layer_documents {first : Profile} {rest : List Profile} {registry : Registry}
    (built : ofList (first :: rest) = .ok registry) (documents : List Value) :
    (∀ added, documents.mapM accept = .ok added →
      ∃ layered, registry.layer documents = .ok layered ∧
        layered.profiles = standing (first :: rest ++ added) ∧
        layered.profiles.Pairwise (fun a b => a.id.same b.id = false) ∧
        ∀ id, id.isKey = true →
          layered.get id = .ok (((lastWith added id).or (lastWith (first :: rest) id)).getD
            (latest (first :: rest ++ added) first))) ∧
      ∀ front document back fault, documents = front ++ document :: back →
        (∀ valid ∈ front, ∃ profile, accept valid = .ok profile) → accept document = .error fault →
        registry.layer documents = .error fault ∧
          ∀ (σ : Type) (oracle : Option Oracle) (bundler : BundlerWith σ)
            (selected : List SourceFile) (contents : Table String (Option String))
            (config : PackConfig) (tokenMap : Table String Int) (s : σ),
            config.profiles = documents →
              packWith oracle bundler registry selected contents config tokenMap s =
                pure (.error fault, s) := by
  obtain ⟨keyed, rfl⟩ := ofList_eq_ok built
  refine ⟨?_, ?_⟩
  · intro added accepted
    obtain ⟨layered, keyedToo⟩ := layer_of_accepted keyed accepted
    have all : Keyed (first :: rest ++ added) := List.forall_mem_append.mpr ⟨keyed, keyedToo⟩
    refine ⟨_, layered, rfl, pairwise_standing all, ?_⟩
    intro id key
    rw [← lastWith_append]
    exact get_standing all key
  · rintro front document back fault rfl accepted refused
    have layered := layer_of_refused accepted refused back ⟨standing (first :: rest)⟩
    refine ⟨layered, ?_⟩
    intro σ oracle bundler selected contents config tokenMap s same
    have target : targetProfile ⟨standing (first :: rest)⟩ config = .error fault := by
      rw [targetProfile, same, layered]
      rfl
    rw [packWith, target]

def sized (id : String) (window : Int) : Value :=
  .map (Value.named [("id", .text id), ("context_window_tokens", .int window)])

theorem accept_sized (id : String) (window : Int) :
    accept (sized id window) = .ok (.known id id window "cl100k") := by
  have read : Profile.ofValue (sized id window) = .ok (.known id id window "cl100k") := by
    simp [sized, Profile.ofValue, Profile.tokenizerOf, Profile.required, Value.field?_named,
      Profile.tokenizers]
    rfl
  rw [accept, read]
  rfl

def twoModels : List Profile :=
  [.known "a" "A" 1000 "claude", .known "b" "B" 2000 "o200k", .known "a" "A" 3000 "o200k"]

theorem layer_documents_twoModels : ∃ registry layered, ofList twoModels = .ok registry ∧
    registry.layer [sized "c" 10, sized "b" 20, sized "b" 30] = .ok layered ∧
    layered.profiles = [.known "a" "A" 3000 "o200k", .known "b" "b" 30 "cl100k",
      .known "c" "c" 10 "cl100k"] ∧
    layered.get (.text "b") = .ok (.known "b" "b" 30 "cl100k") ∧
    layered.get (.text "d") = .ok (.known "a" "A" 3000 "o200k") ∧
    registry.layer [sized "c" 10, .list [], sized "b" 20] = .error .noSuchField ∧
    ∀ (bundler : BundlerWith Nat) (s : Nat),
      packWith none bundler registry [] [] { profiles := [sized "c" 10, .list [], sized "b" 20] } []
        s = pure (.error .noSuchField, s) := by
  have built : ∃ registry, ofList twoModels = .ok registry := ⟨_, rfl⟩
  obtain ⟨registry, built⟩ := built
  obtain ⟨accepted, -⟩ :=
    layer_documents built [sized "c" 10, sized "b" 20, sized "b" 30]
  obtain ⟨-, refused⟩ := layer_documents built [sized "c" 10, .list [], sized "b" 20]
  obtain ⟨layered, done, profiles, -, get⟩ := accepted
    [.known "c" "c" 10 "cl100k", .known "b" "b" 20 "cl100k", .known "b" "b" 30 "cl100k"]
    (by simp only [List.mapM_cons, accept_sized]; rfl)
  obtain ⟨ended, unpacked⟩ := refused [sized "c" 10] (.list []) [sized "b" 20] .noSuchField rfl
    (by simpa using ⟨_, accept_sized "c" 10⟩) rfl
  refine ⟨registry, layered, built, done, ?_, ?_, ?_, ended, ?_⟩
  · rw [profiles]
    simp [standing, firsts, latest, lastWith, Profile.known, Value.same_text]
  · rw [get _ rfl]
    simp [lastWith, Profile.known, Value.same_text]
  · rw [get _ rfl]
    simp [latest, lastWith, Profile.known, Value.same_text]
  · exact fun bundler s => unpacked Nat none bundler [] [] _ [] s rfl

end PromptPack.Registry
