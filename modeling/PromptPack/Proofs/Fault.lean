import PromptPack.Fault

/-! Computations that can fail: what it takes for one to succeed, and where a fault comes from. -/

namespace PromptPack

variable {α β : Type} {x : Except Fault α} {f : α → Except Fault β} {b : β}

theorem bind_eq_ok : x >>= f = .ok b ↔ ∃ a, x = .ok a ∧ f a = .ok b := by
  cases x with
  | error fault =>
    constructor
    · intro failed
      cases failed
    · rintro ⟨a, found, _⟩
      cases found
  | ok a =>
    constructor
    · exact fun result => ⟨a, rfl, result⟩
    · rintro ⟨_, ⟨⟩, result⟩
      exact result

theorem map_eq_ok {g : α → β} : x.map g = .ok b ↔ ∃ a, x = .ok a ∧ g a = b := by
  cases x with
  | error fault =>
    constructor
    · intro failed
      cases failed
    · rintro ⟨a, found, _⟩
      cases found
  | ok a =>
    constructor
    · exact fun result => ⟨a, rfl, Except.ok.inj result⟩
    · rintro ⟨_, ⟨⟩, rfl⟩
      rfl

theorem map_eq_error {g : α → β} {fault : Fault} (h : x.map g = .error fault) :
    x = .error fault := by
  cases x with
  | error other => exact congrArg Except.error (Except.error.inj h)
  | ok a => cases h

theorem bind_isOk_iff (always : ∀ a, ∃ b, f a = .ok b) :
    (∃ b, x >>= f = .ok b) ↔ ∃ a, x = .ok a := by
  constructor
  · rintro ⟨b, result⟩
    obtain ⟨a, found, _⟩ := bind_eq_ok.mp result
    exact ⟨a, found⟩
  · rintro ⟨a, found⟩
    obtain ⟨b, result⟩ := always a
    exact ⟨b, bind_eq_ok.mpr ⟨a, found, result⟩⟩

/-- Where each step succeeds or fails by its argument alone, a run succeeds if all its steps do. -/
theorem foldlM_isOk_iff {step : β → α → Except Fault β} {p : α → Prop}
    (decided : ∀ b a, (∃ c, step b a = .ok c) ↔ p a) (as : List α) (b : β) :
    (∃ c, as.foldlM step b = .ok c) ↔ ∀ a ∈ as, p a := by
  induction as generalizing b with
  | nil => exact iff_of_true ⟨b, rfl⟩ nofun
  | cons a as ih =>
    rw [List.forall_mem_cons, List.foldlM_cons, ← decided b a]
    constructor
    · rintro ⟨c, result⟩
      obtain ⟨next, here, there⟩ := bind_eq_ok.mp result
      exact ⟨⟨next, here⟩, (ih next).mp ⟨c, there⟩⟩
    · rintro ⟨⟨next, here⟩, there⟩
      obtain ⟨c, result⟩ := (ih next).mpr there
      exact ⟨c, bind_eq_ok.mpr ⟨next, here, result⟩⟩

theorem mapM_isOk_iff {as : List α} :
    (∃ bs, as.mapM f = .ok bs) ↔ ∀ a ∈ as, ∃ b, f a = .ok b := by
  induction as with
  | nil => exact iff_of_true ⟨[], rfl⟩ nofun
  | cons a as ih =>
    rw [List.forall_mem_cons, ← ih, List.mapM_cons]
    constructor
    · rintro ⟨bs, result⟩
      obtain ⟨b, here, result⟩ := bind_eq_ok.mp result
      obtain ⟨others, there, _⟩ := bind_eq_ok.mp result
      exact ⟨⟨b, here⟩, others, there⟩
    · rintro ⟨⟨b, here⟩, others, there⟩
      exact ⟨b :: others, bind_eq_ok.mpr ⟨b, here, bind_eq_ok.mpr ⟨others, there, rfl⟩⟩⟩

theorem mapM_eq_ok {g : α → β} {as : List α} (all : ∀ a ∈ as, f a = .ok (g a)) :
    as.mapM f = .ok (as.map g) := by
  induction as with
  | nil => rfl
  | cons a as ih =>
    obtain ⟨here, there⟩ := List.forall_mem_cons.mp all
    rw [List.mapM_cons, here, ih there]
    rfl

end PromptPack
