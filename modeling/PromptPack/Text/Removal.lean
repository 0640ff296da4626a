import PromptPack.Text.Scan
import PromptPack.Text.Search

/-! Taking parts out of a text. A removal says, at each place, whether a part starts there and what
is left behind it. Main statement: what remains is a sublist of the text. -/

namespace PromptPack.Text

/-- What is left of `cs` when a part that starts with `c` is taken out. -/
abbrev Removal := Char → (cs : List Char) → Option { rest : List Char // rest <:+ cs }

theorem suffix_of_after? {key cs rest : List Char} (h : after? key cs = some rest) :
    rest <:+ cs := ⟨key, (after?_eq_some.1 h).symm⟩

theorem suffix_of_breakOn? {key cs before rest : List Char}
    (h : breakOn? key cs = some (before, rest)) : rest <:+ cs :=
  ⟨before ++ key, (breakOn?_eq_some h).symm⟩

namespace Removal

def step (removal : Removal) : ScanStep := fun c cs =>
  match removal c cs with
  | some ⟨rest, h⟩ => ([], ⟨rest, h.length_le⟩)
  | none => copy c cs

def apply (removal : Removal) (cs : List Char) : List Char := scan removal.step cs

def orElse (first second : Removal) : Removal := fun c cs =>
  match first c cs with
  | some rest => some rest
  | none => second c cs

/-- From an opener, given by its first character and the others, to the first closer. -/
def enclosed (first : Char) (opener closer : List Char) : Removal := fun c cs =>
  if c = first then
    match opened : after? opener cs with
    | some inner =>
      match closed : breakOn? closer inner with
      | some (_, rest) =>
        some ⟨rest, (suffix_of_breakOn? closed).trans (suffix_of_after? opened)⟩
      | none => none
    | none => none
  else none

section

variable {first c : Char} {opener closer cs inner before rest : List Char} {removal : Removal}

theorem apply_cons_of_none (none : removal c cs = none) :
    removal.apply (c :: cs) = c :: removal.apply cs := by
  rw [apply, scan_cons, step, none]
  rfl

theorem apply_cons_of_some (suffix : rest <:+ cs) (some : removal c cs = some ⟨rest, suffix⟩) :
    removal.apply (c :: cs) = removal.apply rest := by
  rw [apply, scan_cons, step, some]
  rfl

theorem orElse_of_some {first second : Removal} {left : { rest : List Char // rest <:+ cs }}
    (found : first c cs = some left) : orElse first second c cs = some left := by
  rw [orElse, found]

theorem orElse_of_none {first second : Removal} (missing : first c cs = none) :
    orElse first second c cs = second c cs := by
  rw [orElse, missing]

theorem enclosed_eq_none (closer : List Char) (unopened : ¬ first :: opener <+: c :: cs) :
    enclosed first opener closer c cs = none := by
  unfold enclosed
  split
  · next same =>
    subst same
    split
    · next opened =>
      exact absurd ⟨_, congrArg (c :: ·) (after?_eq_some.mp opened).symm⟩ unopened
    · rfl
  · rfl

theorem enclosed_eq_some (first : Char) (opener : List Char)
    (closed : breakOn? closer inner = some (before, rest)) :
    ∃ suffix, enclosed first opener closer first (opener ++ inner) = some ⟨rest, suffix⟩ := by
  have opened : after? opener (opener ++ inner) = some inner := after?_eq_some.mpr rfl
  refine ⟨(suffix_of_breakOn? closed).trans (suffix_of_after? opened), ?_⟩
  unfold enclosed
  rw [if_pos rfl]
  split
  · next found again =>
    obtain rfl := Option.some.inj (again.symm.trans opened)
    split
    · next twice =>
      have := twice.symm.trans closed
      simp_all
    · next missing => simp [closed] at missing
  · next missing => simp [opened] at missing

end

theorem step_sublist (removal : Removal) (c : Char) (cs : List Char) :
    ((removal.step c cs).1 ++ (removal.step c cs).2.val).Sublist (c :: cs) := by
  unfold step
  split
  · rename_i rest h _
    simpa using h.sublist.trans (List.sublist_cons_self c cs)
  · simp [copy]

theorem apply_sublist (removal : Removal) (cs : List Char) : (removal.apply cs).Sublist cs :=
  scan_sublist removal.step_sublist cs

end Removal

end PromptPack.Text
