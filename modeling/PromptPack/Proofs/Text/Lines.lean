import Mathlib.Data.List.Forall2
import PromptPack.Text.Blank

/-! Lines and trimming. Joining the lines of a text gives the text, and taking characters out of
some lines, or off the ends, leaves the others in their order. -/

namespace PromptPack.Text

variable {p : Char → Bool} {c : Char} {cs : List Char} {part other : List Char}
  {parts others : List (List Char)}

theorem unlines_cons (h : parts ≠ []) : unlines (part :: parts) = part ++ '\n' :: unlines parts := by
  cases parts with
  | nil => exact absurd rfl h
  | cons next parts => simp [unlines, List.intercalate]

theorem unlines_cons_cons (c : Char) (part : List Char) (parts : List (List Char)) :
    unlines ((c :: part) :: parts) = c :: unlines (part :: parts) := by
  cases parts with
  | nil => simp [unlines]
  | cons next parts =>
    rw [unlines_cons (List.cons_ne_nil next parts), unlines_cons (List.cons_ne_nil next parts),
      List.cons_append]

theorem unlines_splitStep (h : parts ≠ []) : unlines (splitStep '\n' c parts) = c :: unlines parts := by
  cases parts with
  | nil => exact absurd rfl h
  | cons part parts =>
    simp only [splitStep]
    split
    · next isBreak => rw [unlines_cons (List.cons_ne_nil part parts), isBreak, List.nil_append]
    · exact unlines_cons_cons c part parts

theorem unlines_lines (cs : List Char) : unlines (lines cs) = cs := by
  induction cs with
  | nil => rfl
  | cons c cs ih => rw [lines, splitOn_cons, unlines_splitStep (splitOn_ne_nil '\n' cs), ← lines, ih]

theorem notMem_of_mem_lines (cs : List Char) : ∀ line ∈ lines cs, '\n' ∉ line := by
  induction cs with
  | nil => simp [lines, splitOn_nil]
  | cons c cs ih =>
    rw [lines, splitOn_cons, ← lines]
    cases split : lines cs with
    | nil => exact absurd split (splitOn_ne_nil '\n' cs)
    | cons part parts =>
      rw [split] at ih
      obtain ⟨first, others⟩ := List.forall_mem_cons.mp ih
      simp only [splitStep]
      split
      · exact List.forall_mem_cons.mpr ⟨List.not_mem_nil, ih⟩
      · next inside =>
        refine List.forall_mem_cons.mpr ⟨fun member => ?_, others⟩
        rcases List.mem_cons.mp member with same | member
        · exact inside same.symm
        · exact first member

theorem lines_lineBreak (cs : List Char) : lines ('\n' :: cs) = [] :: lines cs := by
  rw [lines, splitOn_cons, ← lines]
  cases split : lines cs with
  | nil => exact absurd split (splitOn_ne_nil '\n' cs)
  | cons part parts => rw [splitStep, if_pos rfl]

theorem lines_cons (inside : c ≠ '\n') (cs : List Char) :
    lines (c :: cs) = (lines cs).modifyHead (c :: ·) := by
  rw [lines, splitOn_cons, ← lines]
  cases split : lines cs with
  | nil => exact absurd split (splitOn_ne_nil '\n' cs)
  | cons part parts => rw [splitStep, if_neg inside, List.modifyHead_cons]

theorem exists_lines (cs : List Char) : ∃ parts, lines cs = cs.takeWhile (· != '\n') :: parts := by
  induction cs with
  | nil => exact ⟨[], rfl⟩
  | cons c cs ih =>
    by_cases ends : c = '\n'
    · rw [ends, lines_lineBreak, List.takeWhile_cons_of_neg (by simp)]
      exact ⟨_, rfl⟩
    · obtain ⟨parts, first⟩ := ih
      rw [lines_cons ends, first, List.modifyHead_cons,
        List.takeWhile_cons_of_pos (by simpa using ends)]
      exact ⟨parts, rfl⟩

theorem lines_append (inline : '\n' ∉ part) (cs : List Char) :
    lines (part ++ '\n' :: cs) = part :: lines cs := by
  induction part with
  | nil => exact lines_lineBreak cs
  | cons c part ih =>
    rw [List.cons_append, lines_cons (Ne.symm (List.ne_of_not_mem_cons inline)),
      ih (List.not_mem_of_not_mem_cons inline), List.modifyHead_cons]

theorem lines_append_lineBreak (front cs : List Char) :
    lines (front ++ '\n' :: cs) = lines front ++ lines cs := by
  induction front with
  | nil => exact lines_lineBreak cs
  | cons c front ih =>
    rw [List.cons_append]
    by_cases ends : c = '\n'
    · rw [ends, lines_lineBreak, lines_lineBreak, ih, List.cons_append]
    · obtain ⟨parts, first⟩ := exists_lines front
      rw [lines_cons ends, lines_cons ends, ih, first, List.cons_append, List.modifyHead_cons,
        List.modifyHead_cons, List.cons_append]

theorem lines_of_inline (inline : '\n' ∉ part) : lines part = [part] := by
  induction part with
  | nil => rfl
  | cons c part ih =>
    rw [lines_cons (Ne.symm (List.ne_of_not_mem_cons inline)),
      ih (List.not_mem_of_not_mem_cons inline), List.modifyHead_cons]

theorem lines_unlines (some : parts ≠ []) (inline : ∀ line ∈ parts, '\n' ∉ line) :
    lines (unlines parts) = parts := by
  induction parts with
  | nil => exact absurd rfl some
  | cons part parts ih =>
    obtain ⟨sameLine, inline⟩ := List.forall_mem_cons.mp inline
    cases parts with
    | nil => simpa [unlines] using lines_of_inline sameLine
    | cons next parts =>
      rw [unlines_cons (List.cons_ne_nil next parts), lines_append sameLine,
        ih (List.cons_ne_nil next parts) inline]

theorem unlines_sublist (h : List.Forall₂ List.Sublist parts others) :
    (unlines parts).Sublist (unlines others) := by
  induction h with
  | nil => exact .refl _
  | @cons part other parts others first rest ih =>
    cases rest with
    | nil => simpa [unlines] using first
    | cons next rest =>
      rw [unlines_cons (List.cons_ne_nil _ _), unlines_cons (List.cons_ne_nil _ _)]
      exact first.append (ih.cons_cons '\n')

theorem unlines_map_sublist {f : List Char → List Char} (shortens : ∀ line, (f line).Sublist line)
    (parts : List (List Char)) : (unlines (parts.map f)).Sublist (unlines parts) :=
  unlines_sublist (List.forall₂_map_left_iff.mpr (List.forall₂_same.mpr fun line _ => shortens line))

theorem trimEnd_cons (c : Char) (cs : List Char) :
    trimEnd (c :: cs) = if isBlank c = true ∧ trimEnd cs = [] then [] else c :: trimEnd cs := by
  unfold trimEnd dropEndWhile
  rw [List.reverse_cons, List.dropWhile_append]
  by_cases nothing : cs.reverse.dropWhile isBlank = []
  · by_cases blank : isBlank c = true <;> simp [nothing, blank]
  · simp [nothing]

theorem trimEnd_eq_nil_iff : trimEnd cs = [] ↔ ∀ c ∈ cs, isBlank c = true := by
  induction cs with
  | nil => simp [trimEnd, dropEndWhile]
  | cons c cs ih =>
    rw [trimEnd_cons, List.forall_mem_cons, ← ih]
    split
    · next nothing => exact iff_of_true rfl nothing
    · next some => exact iff_of_false (List.cons_ne_nil _ _) some

theorem dropEndWhile_sublist (p : Char → Bool) (cs : List Char) : (dropEndWhile p cs).Sublist cs := by
  rw [← List.reverse_sublist, dropEndWhile, List.reverse_reverse]
  exact List.dropWhile_sublist p

theorem trimEnd_sublist (cs : List Char) : (trimEnd cs).Sublist cs := dropEndWhile_sublist _ cs

theorem trimEnd_prefix (cs : List Char) : trimEnd cs <+: cs := by
  rw [← List.reverse_suffix, trimEnd, dropEndWhile, List.reverse_reverse]
  exact List.dropWhile_suffix isBlank

theorem trim_sublist (cs : List Char) : (trim cs).Sublist cs :=
  (trimEnd_sublist _).trans (List.dropWhile_sublist _)

/-- The text of lines, each with the line break in front of it. -/
def newLines (parts : List (List Char)) : List Char := parts.flatMap ('\n' :: ·)

@[simp] theorem newLines_nil : newLines [] = [] := rfl

@[simp] theorem newLines_cons (part : List Char) (parts : List (List Char)) :
    newLines (part :: parts) = '\n' :: (part ++ newLines parts) := rfl

@[simp] theorem newLines_append (parts others : List (List Char)) :
    newLines (parts ++ others) = newLines parts ++ newLines others := List.flatMap_append

theorem unlines_eq (part : List Char) (parts : List (List Char)) :
    unlines (part :: parts) = part ++ newLines parts := by
  induction parts generalizing part with
  | nil => simp [unlines]
  | cons next parts ih => rw [unlines_cons (List.cons_ne_nil next parts), ih, newLines_cons]

theorem lines_newLines (inline : ∀ line ∈ part :: parts, '\n' ∉ line) :
    lines (part ++ newLines parts) = part :: parts := by
  rw [← unlines_eq]
  exact lines_unlines (List.cons_ne_nil part parts) inline

theorem cons_eq_of_inline {other : List Char} {rest : List (List Char)}
    (inline : ∀ line ∈ part :: parts, '\n' ∉ line) (inlineOther : ∀ line ∈ other :: rest, '\n' ∉ line)
    (same : part ++ newLines parts = other ++ newLines rest) : part :: parts = other :: rest := by
  rw [← lines_newLines inline, same, lines_newLines inlineOther]

theorem exists_lines_eq (cs : List Char) :
    ∃ part parts, lines cs = part :: parts ∧ cs = part ++ newLines parts := by
  obtain ⟨parts, first⟩ := exists_lines cs
  refine ⟨_, parts, first, ?_⟩
  rw [← unlines_eq, ← first, unlines_lines]

end PromptPack.Text
