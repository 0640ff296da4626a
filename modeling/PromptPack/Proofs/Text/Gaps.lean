import Mathlib.Data.List.DropRight
import Mathlib.Data.List.TakeWhile
import PromptPack.Proofs.Text.Lines

/-! The white space of a text, cut at the characters that are none. What happens to it is shown gap
by gap: `gap_induction`. -/

namespace PromptPack.Text

def Blank (cs : List Char) : Prop := ∀ c ∈ cs, isBlank c = true

theorem blank_nil : Blank [] := nofun

theorem Blank.sublist {cs left : List Char} (blank : Blank cs) (shorter : left.Sublist cs) :
    Blank left := fun c member => blank c (shorter.subset member)

/-- The white space in front of each other character. -/
def gapsBefore (cs : List Char) : List (List Char) := (cs.splitOnP (!isBlank ·)).dropLast

/-- The white space between two other characters that follow each other. -/
def gaps (cs : List Char) : List (List Char) := (gapsBefore cs).tail

section

variable {gap : List Char} {c : Char}

@[elab_as_elim]
theorem gap_induction {motive : List Char → Prop} (blank : ∀ gap, Blank gap → motive gap)
    (append : ∀ gap c cs, Blank gap → isBlank c = false → motive cs → motive (gap ++ c :: cs))
    (cs : List Char) : motive cs := by
  suffices all : ∀ gap, Blank gap → motive (gap ++ cs) from all [] blank_nil
  induction cs with
  | nil =>
    intro gap isGap
    rw [List.append_nil]
    exact blank gap isGap
  | cons c cs ih =>
    intro gap isGap
    cases kind : isBlank c with
    | true =>
      rw [List.append_cons]
      refine ih (gap ++ [c]) fun other member => ?_
      rcases List.mem_append.mp member with member | member
      · exact isGap other member
      · rw [List.mem_singleton.mp member, kind]
    | false => exact append gap c cs isGap kind (ih [] blank_nil)

theorem gapsBefore_of_blank (blank : Blank gap) : gapsBefore gap = [] := by
  rw [gapsBefore, List.splitOnP_eq_singleton (by simpa [Blank] using blank)]
  rfl

theorem gapsBefore_append (blank : Blank gap) (solid : isBlank c = false) (cs : List Char) :
    gapsBefore (gap ++ c :: cs) = gap :: gapsBefore cs := by
  rw [gapsBefore, List.splitOnP_append_cons gap cs (by simp [solid]),
    List.splitOnP_eq_singleton (by simpa [Blank] using blank)]
  exact List.dropLast_cons_of_ne_nil (List.splitOnP_ne_nil _ cs)

theorem gaps_of_blank (blank : Blank gap) : gaps gap = [] := by
  rw [gaps, gapsBefore_of_blank blank]
  rfl

theorem gaps_append (blank : Blank gap) (solid : isBlank c = false) (cs : List Char) :
    gaps (gap ++ c :: cs) = gapsBefore cs := by
  rw [gaps, gapsBefore_append blank solid]
  rfl

theorem ne_lineBreak_of_solid (solid : isBlank c = false) : c ≠ '\n' := by
  rintro rfl
  cases solid

theorem blank_restOfLine_iff (blank : Blank gap) (solid : isBlank c = false) (cs : List Char) :
    Blank ((gap ++ c :: cs).takeWhile (· != '\n')) ↔ '\n' ∈ gap := by
  induction gap with
  | nil =>
    have inside := ne_lineBreak_of_solid solid
    rw [List.nil_append, List.takeWhile_cons_of_pos (by simpa using inside)]
    simp [Blank, solid]
  | cons first gap ih =>
    obtain ⟨isGap, blank⟩ := List.forall_mem_cons.mp blank
    by_cases ends : first = '\n'
    · simp [ends, Blank]
    · have rest := ih blank
      unfold Blank at rest ⊢
      rw [List.cons_append, List.takeWhile_cons_of_pos (by simpa using ends), List.forall_mem_cons,
        rest, List.mem_cons]
      simp [isGap, Ne.symm ends]

/-! Trimming. -/

theorem trimStart_of_blank (blank : Blank gap) : trimStart gap = [] :=
  List.dropWhile_eq_nil_iff.mpr blank

theorem trimStart_append (blank : Blank gap) (solid : isBlank c = false) (cs : List Char) :
    trimStart (gap ++ c :: cs) = c :: cs := by
  rw [trimStart, List.dropWhile_append_of_pos blank, List.dropWhile_cons_of_neg (by simp [solid])]

theorem trimEnd_append (solid : isBlank c = false) (front cs : List Char) :
    trimEnd (front ++ c :: cs) = front ++ c :: trimEnd cs := by
  induction front with
  | nil => rw [List.nil_append, trimEnd_cons, if_neg (by simp [solid]), List.nil_append]
  | cons first front ih =>
    rw [List.cons_append, trimEnd_cons, ih, if_neg (by simp), List.cons_append]

theorem trimEnd_trimEnd (cs : List Char) : trimEnd (trimEnd cs) = trimEnd cs :=
  List.rdropWhile_idempotent isBlank cs

theorem trimStart_eq_self_iff {cs : List Char} :
    trimStart cs = cs ↔ ∀ c ∈ cs.head?, isBlank c = false := by
  rw [trimStart, List.dropWhile_eq_self_iff]
  cases cs <;> simp

theorem trimEnd_eq_self_iff {cs : List Char} :
    trimEnd cs = cs ↔ ∀ c ∈ cs.getLast?, isBlank c = false := by
  have last : trimEnd cs = cs ↔ ∀ some : cs ≠ [], ¬ isBlank (cs.getLast some) = true :=
    List.rdropWhile_eq_self_iff
  rw [last]
  by_cases none : cs = []
  · simp [none]
  · simp [List.getLast?_eq_some_getLast none, none]

/-! Texts that are found on one side of a character that they do not have. -/

theorem prefix_append_cons_iff {key front rest : List Char} (other : c ∉ key) :
    key <+: front ++ c :: rest ↔ key <+: front := by
  refine ⟨fun ahead => ?_, fun ahead => ahead.trans (List.prefix_append _ _)⟩
  induction front generalizing key with
  | nil =>
    cases key with
    | nil => exact List.nil_prefix
    | cons first key =>
      obtain ⟨rfl, -⟩ := List.cons_prefix_cons.mp ahead
      exact absurd List.mem_cons_self other
  | cons next front ih =>
    cases key with
    | nil => exact List.nil_prefix
    | cons first key =>
      obtain ⟨same, behind⟩ := List.cons_prefix_cons.mp ahead
      exact List.cons_prefix_cons.mpr ⟨same, ih (List.not_mem_of_not_mem_cons other) behind⟩

theorem infix_cons_iff_of_notMem {key rest : List Char} (other : c ∉ key) :
    key <:+: c :: rest ↔ key = [] ∨ key <:+: rest := by
  have empty : key <+: [] ++ c :: rest ↔ key <+: [] := prefix_append_cons_iff other
  rw [List.infix_cons_iff, ← List.prefix_nil, ← empty, List.nil_append]

theorem infix_append_cons_iff {key front rest : List Char} (other : c ∉ key) :
    key <:+: front ++ c :: rest ↔ key <:+: front ∨ key <:+: rest := by
  induction front with
  | nil => rw [List.nil_append, infix_cons_iff_of_notMem other, List.infix_nil]
  | cons next front ih =>
    rw [List.cons_append, List.infix_cons_iff, ih, List.infix_cons_iff, ← List.cons_append,
      prefix_append_cons_iff other, or_assoc]

end

end PromptPack.Text
