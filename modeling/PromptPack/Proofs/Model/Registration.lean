import PromptPack.Proofs.Document.Value
import PromptPack.Proofs.Model.Registry

/-! What a sequence of registrations leaves. An id keeps the place where it was registered first and
holds the profile that was registered last. Main statements: `ofList_eq`, `layer_eq`, `get_standing`. -/

namespace PromptPack.Registry

def lastWith (profiles : List Profile) (id : Value) : Option Profile :=
  (profiles.filter fun profile => profile.id.same id).getLast?

/-- Of each id the profile that comes first. -/
def firsts : List Profile → List Profile
  | [] => []
  | first :: rest => first :: (firsts rest).filter fun later => !first.id.same later.id

/-- The profile of the same id that comes last. (Not a number has no other of its id.) -/
def latest (profiles : List Profile) (profile : Profile) : Profile :=
  (lastWith profiles profile.id).getD profile

def standing (profiles : List Profile) : List Profile := (firsts profiles).map (latest profiles)

def Keyed (profiles : List Profile) : Prop := ∀ profile ∈ profiles, profile.id.isKey = true

variable {profiles front : List Profile} {profile first last : Profile} {id : Value}

theorem lastWith_append (front profiles : List Profile) (id : Value) :
    lastWith (front ++ profiles) id = (lastWith profiles id).or (lastWith front id) := by
  rw [lastWith, List.filter_append, List.getLast?_append]
  rfl

theorem lastWith_concat (profiles : List Profile) (profile : Profile) (id : Value) :
    lastWith (profiles ++ [profile]) id =
      if profile.id.same id then some profile else lastWith profiles id := by
  rw [lastWith_append]
  unfold lastWith
  by_cases same : profile.id.same id <;> simp [same]

theorem same_of_lastWith (found : lastWith profiles id = some last) :
    last ∈ profiles ∧ last.id.same id = true := by
  have member := List.mem_of_getLast? found
  rwa [List.mem_filter] at member

theorem firsts_sublist (profiles : List Profile) : (firsts profiles).Sublist profiles := by
  induction profiles with
  | nil => exact .slnil
  | cons first rest ih => exact (List.filter_sublist.trans ih).cons_cons first

theorem mem_of_mem_firsts (member : profile ∈ firsts profiles) : profile ∈ profiles :=
  (firsts_sublist profiles).mem member

theorem Keyed.of_cons (keyed : Keyed (first :: profiles)) : Keyed profiles :=
  fun profile member => keyed profile (List.mem_cons_of_mem first member)

theorem Keyed.firsts (keyed : Keyed profiles) : Keyed (firsts profiles) :=
  fun profile member => keyed profile (mem_of_mem_firsts member)

theorem exists_firsts_iff (keyed : Keyed profiles) (id : Value) :
    (∃ first ∈ firsts profiles, first.id.same id = true) ↔
      ∃ profile ∈ profiles, profile.id.same id = true := by
  constructor
  · rintro ⟨first, member, same⟩
    exact ⟨first, mem_of_mem_firsts member, same⟩
  · intro known
    induction profiles with
    | nil => exact absurd known (by simp)
    | cons first rest ih =>
      rw [Registry.firsts]
      by_cases same : first.id.same id = true
      · exact ⟨first, List.mem_cons_self, same⟩
      · obtain ⟨later, member, found⟩ := ih keyed.of_cons (by simpa [same] using known)
        refine ⟨later, List.mem_cons_of_mem first (List.mem_filter.mpr ⟨member, ?_⟩), found⟩
        -- One that is left out has the id of the first, and the first has another one than this.
        cases again : first.id.same later.id with
        | false => rfl
        | true =>
          have firstKey := keyed first List.mem_cons_self
          exact absurd ((Value.same_congr firstKey again id).trans found) same

theorem firsts_concat (profiles : List Profile) (added : Profile) :
    firsts (profiles ++ [added]) =
      if profiles.any fun profile => profile.id.same added.id then firsts profiles
      else firsts profiles ++ [added] := by
  induction profiles with
  | nil => rfl
  | cons first rest ih =>
    rw [List.cons_append, Registry.firsts, Registry.firsts, ih, List.any_cons]
    cases same : first.id.same added.id <;> cases rest.any _ <;> simp [same]

theorem pairwise_firsts (profiles : List Profile) :
    (firsts profiles).Pairwise fun a b => a.id.same b.id = false := by
  induction profiles with
  | nil => exact .nil
  | cons first rest ih =>
    rw [Registry.firsts, List.pairwise_cons]
    refine ⟨?_, ih.filter _⟩
    intro later member
    simpa using (List.mem_filter.mp member).2

theorem mem_latest (member : profile ∈ profiles) : latest profiles profile ∈ profiles := by
  unfold latest
  cases found : lastWith profiles profile.id with
  | none => exact member
  | some last => exact (same_of_lastWith found).1

theorem same_latest (keyed : Keyed profiles) (profile : Profile) (id : Value) :
    (latest profiles profile).id.same id = profile.id.same id := by
  unfold latest
  cases found : lastWith profiles profile.id with
  | none => rfl
  | some last =>
    obtain ⟨member, same⟩ := same_of_lastWith found
    exact Value.same_congr (keyed last member) same id

theorem latest_concat (profiles : List Profile) (added profile : Profile) :
    latest (profiles ++ [added]) profile =
      if added.id.same profile.id then added else latest profiles profile := by
  rw [latest, lastWith_concat]
  split
  · rfl
  · rfl

theorem Keyed.standing (keyed : Keyed profiles) : Keyed (standing profiles) := by
  intro profile member
  obtain ⟨first, listed, rfl⟩ := List.mem_map.mp member
  exact keyed _ (mem_latest (mem_of_mem_firsts listed))

theorem pairwise_standing (keyed : Keyed profiles) :
    (standing profiles).Pairwise fun a b => a.id.same b.id = false := by
  rw [standing, List.pairwise_map]
  apply (pairwise_firsts profiles).imp_of_mem
  intro a b member other apart
  have keyA := keyed.firsts a member
  have keyB := keyed.firsts b other
  have keyLatest := keyed _ (mem_latest (mem_of_mem_firsts other))
  rw [same_latest keyed, Value.same_comm keyA keyLatest, same_latest keyed,
    Value.same_comm keyB keyA, apart]

theorem replace_of_known {added : Profile} (keyed : Keyed profiles) (key : added.id.isKey = true)
    (distinct : profiles.Pairwise fun a b => a.id.same b.id = false)
    (known : ∃ profile ∈ profiles, profile.id.same added.id = true) :
    replace added profiles =
      profiles.map fun profile => if profile.id.same added.id then added else profile := by
  induction profiles with
  | nil => exact absurd known (by simp)
  | cons first rest ih =>
    obtain ⟨apart, distinct⟩ := List.pairwise_cons.mp distinct
    rw [replace, List.map_cons]
    by_cases same : first.id.same added.id = true
    · rw [if_pos same, if_pos same]
      congr 1
      symm
      apply (List.map_congr_left _).trans (List.map_id rest)
      intro later member
      have keyLater := keyed.of_cons later member
      rw [Value.same_comm keyLater key, ← Value.same_congr (keyed first List.mem_cons_self) same,
        apart later member]
      rfl
    · rw [if_neg same, if_neg same, ih keyed.of_cons distinct (by simpa [same] using known)]

theorem replace_of_fresh {added : Profile}
    (fresh : ∀ profile ∈ profiles, profile.id.same added.id = false) :
    replace added profiles = profiles ++ [added] := by
  induction profiles with
  | nil => rfl
  | cons first rest ih =>
    obtain ⟨other, fresh⟩ := List.forall_mem_cons.mp fresh
    rw [replace, other, ih fresh]
    rfl

theorem replace_standing {added : Profile} (keyed : Keyed profiles) (key : added.id.isKey = true) :
    replace added (standing profiles) = standing (profiles ++ [added]) := by
  have held : ∀ first ∈ firsts profiles,
      (if (latest profiles first).id.same added.id then added else latest profiles first) =
        latest (profiles ++ [added]) first := by
    intro first member
    rw [same_latest keyed, latest_concat, Value.same_comm (keyed.firsts first member) key]
  by_cases known : ∃ profile ∈ profiles, profile.id.same added.id = true
  · have listed : ∃ profile ∈ standing profiles, profile.id.same added.id = true := by
      obtain ⟨first, member, same⟩ := (exists_firsts_iff keyed added.id).mpr known
      exact ⟨_, List.mem_map_of_mem member, (same_latest keyed first added.id).trans same⟩
    rw [replace_of_known keyed.standing key (pairwise_standing keyed) listed, standing, standing,
      List.map_map, firsts_concat, if_pos (List.any_eq_true.mpr known)]
    exact List.map_congr_left held
  · have fresh : ∀ profile ∈ profiles, profile.id.same added.id = false := by simpa using known
    have alone : lastWith profiles added.id = none := by
      rw [lastWith, List.filter_eq_nil_iff.mpr (by simpa using fresh)]
      rfl
    have unheld : ∀ first ∈ firsts profiles, (latest profiles first).id.same added.id = false :=
      fun first member => (same_latest keyed first added.id).trans (fresh first (mem_of_mem_firsts member))
    rw [standing, replace_of_fresh (by simpa using unheld), standing, firsts_concat,
      if_neg (mt List.any_eq_true.mp known), List.map_append, List.map_singleton]
    congr 1
    · apply List.map_congr_left
      intro first member
      rw [← held first member, if_neg (by simp [unheld first member])]
    · rw [latest_concat, latest, alone]
      simp

theorem lastWith_congr (keyed : Keyed profiles) {other : Value} (key : id.isKey = true)
    (keyOther : other.isKey = true) (same : id.same other = true) :
    lastWith profiles id = lastWith profiles other := by
  unfold lastWith
  congr 1
  apply List.filter_congr
  intro profile member
  rw [Value.same_comm (keyed profile member) key, Value.same_congr key same,
    Value.same_comm keyOther (keyed profile member)]

theorem find?_standing (keyed : Keyed profiles) (key : id.isKey = true) :
    (standing profiles).find? (fun profile => profile.id.same id) = lastWith profiles id := by
  have same : (fun profile => Value.same (Profile.id profile) id) ∘ latest profiles =
      fun profile => profile.id.same id := by
    funext profile
    exact same_latest keyed profile id
  rw [standing, List.find?_map, same]
  cases found : (firsts profiles).find? fun profile => profile.id.same id with
  | none =>
    have unknown : ¬ ∃ first ∈ firsts profiles, first.id.same id = true := by simpa using found
    rw [exists_firsts_iff keyed] at unknown
    rw [lastWith, List.filter_eq_nil_iff.mpr (by simpa using unknown)]
    rfl
  | some first =>
    have member := List.mem_of_find?_eq_some found
    have again := List.find?_some found
    rw [Option.map_some, latest,
      lastWith_congr keyed (keyed.firsts first member) key again]
    cases last : lastWith profiles id with
    | some last => rfl
    | none =>
      rw [lastWith, List.getLast?_eq_none_iff, List.filter_eq_nil_iff] at last
      exact absurd again (last first (mem_of_mem_firsts member))

variable {registry next : Registry} {document : Value} {documents : List Value} {fault : Fault}

theorem register_eq_ok (registered : registry.register profile = .ok next) :
    profile.id.isKey = true := by
  unfold register at registered
  split at registered
  · assumption
  · cases registered

theorem register_standing (keyed : Keyed profiles) (key : profile.id.isKey = true) :
    register ⟨standing profiles⟩ profile = .ok ⟨standing (profiles ++ [profile])⟩ := by
  rw [register, if_pos key, replace_standing keyed key]

theorem Keyed.concat (keyed : Keyed profiles) (key : profile.id.isKey = true) :
    Keyed (profiles ++ [profile]) := by
  simpa [Keyed, or_imp, forall_and] using ⟨keyed, key⟩

theorem foldlM_register (keyed : Keyed front) (rest : Keyed profiles) :
    profiles.foldlM register ⟨standing front⟩ = .ok ⟨standing (front ++ profiles)⟩ := by
  induction profiles generalizing front with
  | nil =>
    rw [List.append_nil]
    rfl
  | cons added profiles ih =>
    have key := rest added List.mem_cons_self
    rw [List.foldlM_cons, register_standing keyed key, List.append_cons front added profiles]
    exact ih (keyed.concat key) rest.of_cons

theorem keyed_of_foldlM (built : profiles.foldlM register registry = .ok next) : Keyed profiles := by
  induction profiles generalizing registry with
  | nil => exact nofun
  | cons added profiles ih =>
    rw [List.foldlM_cons] at built
    obtain ⟨between, registered, built⟩ := bind_eq_ok.mp built
    exact List.forall_mem_cons.mpr ⟨register_eq_ok registered, ih built⟩

theorem ofList_eq_ok (built : ofList profiles = .ok registry) :
    Keyed profiles ∧ registry = ⟨standing profiles⟩ := by
  have keyed := keyed_of_foldlM built
  refine ⟨keyed, ?_⟩
  have same := foldlM_register (nofun : Keyed []) keyed
  rw [ofList] at built
  exact Except.ok.inj (built.symm.trans same)

theorem foldlM_register_of_distinct (front : List Profile) (keyed : Keyed profiles)
    (distinct : (front ++ profiles).Pairwise fun a b => a.id.same b.id = false) :
    profiles.foldlM register ⟨front⟩ = .ok ⟨front ++ profiles⟩ := by
  induction profiles generalizing front with
  | nil =>
    rw [List.append_nil]
    rfl
  | cons added profiles ih =>
    have fresh : ∀ profile ∈ front, profile.id.same added.id = false :=
      fun profile member => (List.pairwise_append.mp distinct).2.2 profile member added
        List.mem_cons_self
    rw [List.append_cons front added profiles] at distinct ⊢
    rw [List.foldlM_cons, register, if_pos (keyed added List.mem_cons_self), replace_of_fresh fresh]
    exact ih _ keyed.of_cons distinct

theorem ofList_profiles (built : ofList profiles = .ok registry) :
    ofList registry.profiles = .ok registry := by
  obtain ⟨keyed, rfl⟩ := ofList_eq_ok built
  exact foldlM_register_of_distinct [] keyed.standing (pairwise_standing keyed)

def accept (document : Value) : Except Fault Profile := do
  let profile ← Profile.ofValue document
  if profile.id.isKey then return profile else throw .wrongType

theorem accept_eq_ok (accepted : accept document = .ok profile) :
    Profile.ofValue document = .ok profile ∧ profile.id.isKey = true := by
  obtain ⟨read, found, kept⟩ := bind_eq_ok.mp accepted
  split at kept
  · cases kept
    exact ⟨found, by assumption⟩
  · cases kept

theorem layer_cons_of_accepted (accepted : accept document = .ok profile) :
    registry.layer (document :: documents) =
      layer ⟨replace profile registry.profiles⟩ documents := by
  obtain ⟨read, key⟩ := accept_eq_ok accepted
  rw [layer, List.foldlM_cons, read]
  change registry.register profile >>= _ = _
  rw [register, if_pos key]
  rfl

theorem layer_cons_of_refused (refused : accept document = .error fault) :
    registry.layer (document :: documents) = .error fault := by
  rw [layer, List.foldlM_cons]
  cases read : Profile.ofValue document with
  | error other =>
    rw [accept, read] at refused
    cases refused
    rfl
  | ok profile =>
    change registry.register profile >>= _ = _
    rw [accept, read] at refused
    by_cases key : profile.id.isKey = true
    · cases (if_pos key).symm.trans refused
    · cases (if_neg key).symm.trans refused
      rw [register, if_neg key]
      rfl

/-- Documents that are all accepted are registered in their order. -/
theorem layer_of_accepted {added : List Profile} (keyed : Keyed profiles)
    (accepted : documents.mapM accept = .ok added) :
    layer ⟨standing profiles⟩ documents = .ok ⟨standing (profiles ++ added)⟩ ∧ Keyed added := by
  induction documents generalizing profiles added with
  | nil =>
    cases accepted
    refine ⟨?_, nofun⟩
    rw [List.reverse_nil, List.append_nil]
    rfl
  | cons document documents ih =>
    rw [List.mapM_cons] at accepted
    obtain ⟨profile, here, accepted⟩ := bind_eq_ok.mp accepted
    obtain ⟨others, there, accepted⟩ := bind_eq_ok.mp accepted
    cases accepted
    have key := (accept_eq_ok here).2
    obtain ⟨layered, rest⟩ := ih (keyed.concat key) there
    refine ⟨?_, List.forall_mem_cons.mpr ⟨key, rest⟩⟩
    rw [layer_cons_of_accepted here, replace_standing keyed key, layered,
      List.append_cons profiles profile others]

/-- The first document that is refused ends the layering. -/
theorem layer_of_refused {front : List Value}
    (accepted : ∀ valid ∈ front, ∃ profile, accept valid = .ok profile)
    (refused : accept document = .error fault) (back : List Value) (registry : Registry) :
    registry.layer (front ++ document :: back) = .error fault := by
  induction front generalizing registry with
  | nil => exact layer_cons_of_refused refused
  | cons valid front ih =>
    obtain ⟨⟨profile, here⟩, there⟩ := List.forall_mem_cons.mp accepted
    rw [List.cons_append, layer_cons_of_accepted here]
    exact ih there _

theorem get_standing (keyed : Keyed (first :: profiles)) (key : id.isKey = true) :
    get ⟨standing (first :: profiles)⟩ id =
      .ok ((lastWith (first :: profiles) id).getD (latest (first :: profiles) first)) := by
  have found := find?_standing keyed key
  rw [← found]
  exact if_pos key

end PromptPack.Registry
