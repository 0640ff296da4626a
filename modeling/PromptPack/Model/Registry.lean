import PromptPack.Model.Profile

/-! Profiles by id. A profile that is registered under a known id takes the place of the old one; an
id that is not known stands for the first profile. -/

namespace PromptPack

structure Registry where
  profiles : List Profile := []
deriving Repr

namespace Registry

def find? (registry : Registry) (id : Value) : Option Profile :=
  registry.profiles.find? fun profile => profile.id.same id

def replace (profile : Profile) : List Profile → List Profile
  | [] => [profile]
  | first :: rest =>
    if first.id.same profile.id then profile :: rest else first :: replace profile rest

def register (registry : Registry) (profile : Profile) : Except Fault Registry :=
  if profile.id.isKey then .ok ⟨replace profile registry.profiles⟩ else .error .wrongType

def ofList (profiles : List Profile) : Except Fault Registry := profiles.foldlM register {}

/-- The registry with profiles from documents on top; the first that is refused ends it. -/
def layer (registry : Registry) (documents : List Value) : Except Fault Registry :=
  documents.foldlM (fun registry document => do registry.register (← Profile.ofValue document)) registry

def get (registry : Registry) (id : Value) : Except Fault Profile :=
  match registry.profiles with
  | [] => .error .noProfiles
  | first :: _ =>
    if id.isKey then .ok ((registry.find? id).getD first) else .error .wrongType

def ids (registry : Registry) : List Value := registry.profiles.map (·.id)

def defaults : Registry where
  profiles :=
    [ .known "claude-opus-4" "Anthropic Claude (Opus 4)" 200000 "claude",
      .known "claude-sonnet-4" "Anthropic Claude (Sonnet 4)" 200000 "claude",
      .known "gemini-2-5-pro" "Google Gemini 2.5 Pro" 1048576 "gemini",
      .known "gemini-2-0-flash" "Google Gemini 2.0 Flash" 1048576 "gemini",
      .known "chatgpt-4o" "OpenAI ChatGPT-4o" 128000 "o200k",
      .known "chatgpt-o3" "OpenAI o3" 200000 "o200k",
      .known "chatgpt-o4-mini" "OpenAI o4-mini" 200000 "o200k" ]

end Registry

end PromptPack
