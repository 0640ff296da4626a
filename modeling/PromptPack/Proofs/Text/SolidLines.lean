import PromptPack.Proofs.Text.Gaps

/-! The lines that hold more than white space, and the words on them. Trimmed at their ends, these
lines are read from the right like words are: `finishLine_foldr`. White space at the end of the text
does not change the reading, and white space in front only shortens the first line. -/

namespace PromptPack.Text

def solidLines (cs : List Char) : List (List Char) := (lines cs).filter fun line => !line.all isBlank

def finishLine (parts : List Char × List (List Char)) : List (List Char) :=
  if parts.1 = [] then parts.2 else parts.1 :: parts.2

/-- Adds a character to the line being read, which is trimmed at its end. -/
def lineStep (c : Char) (parts : List Char × List (List Char)) : List Char × List (List Char) :=
  if c = '\n' then ([], finishLine parts)
  else (if isBlank c = true ∧ parts.1 = [] then [] else c :: parts.1, parts.2)

section

variable {c : Char} {cs : List Char} {α : Type} {step : Char → α → α} {init : α}

theorem foldr_trimEnd (still : ∀ c, isBlank c = true → step c init = init) (cs : List Char) :
    (trimEnd cs).foldr step init = cs.foldr step init := by
  induction cs with
  | nil => rfl
  | cons c cs ih =>
    rw [trimEnd_cons, List.foldr_cons, ← ih]
    split
    · next nothing => rw [nothing.2, List.foldr_nil, still c nothing.1]
    · rfl

/-! Lines. -/

theorem all_isBlank_iff (line : List Char) : line.all isBlank = true ↔ trimEnd line = [] := by
  rw [trimEnd_eq_nil_iff, List.all_eq_true]

theorem finishLine_trimEnd (first : List Char) (parts : List (List Char)) :
    finishLine (trimEnd first, (parts.filter fun line => !line.all isBlank).map trimEnd) =
      ((first :: parts).filter fun line => !line.all isBlank).map trimEnd := by
  have kind := all_isBlank_iff first
  unfold finishLine
  by_cases nothing : trimEnd first = []
  · rw [if_pos nothing, List.filter_cons_of_neg (by simp [kind.mpr nothing])]
  · have solid : first.all isBlank = false := by simpa using mt kind.mp nothing
    rw [if_neg nothing, List.filter_cons_of_pos (by simp [solid]), List.map_cons]

theorem exists_foldr_lineStep (cs : List Char) :
    ∃ first parts, lines cs = first :: parts ∧ cs.foldr lineStep ([], []) =
      (trimEnd first, (parts.filter fun line => !line.all isBlank).map trimEnd) := by
  induction cs with
  | nil => exact ⟨[], [], rfl, rfl⟩
  | cons c cs ih =>
    obtain ⟨first, parts, split, fold⟩ := ih
    rw [List.foldr_cons, fold]
    by_cases ends : c = '\n'
    · refine ⟨[], first :: parts, by rw [ends, lines_lineBreak, split], ?_⟩
      rw [lineStep, if_pos ends, finishLine_trimEnd]
      rfl
    · refine ⟨c :: first, parts, by rw [lines_cons ends, split, List.modifyHead_cons], ?_⟩
      rw [lineStep, if_neg ends, trimEnd_cons]

theorem finishLine_foldr (cs : List Char) :
    finishLine (cs.foldr lineStep ([], [])) = (solidLines cs).map trimEnd := by
  obtain ⟨first, parts, split, fold⟩ := exists_foldr_lineStep cs
  rw [fold, finishLine_trimEnd, solidLines, split]

theorem lineStep_of_blank (blank : isBlank c = true) (others : List (List Char)) :
    lineStep c ([], others) = ([], others) := by
  unfold lineStep
  split
  · rfl
  · rw [if_pos ⟨blank, rfl⟩]

theorem finishLine_lineStep_of_blank (blank : isBlank c = true)
    (parts : List Char × List (List Char)) :
    (finishLine (lineStep c parts)).modifyHead trimStart =
      (finishLine parts).modifyHead trimStart := by
  obtain ⟨first, others⟩ := parts
  by_cases ends : c = '\n'
  · rw [lineStep, if_pos ends]
    rfl
  · cases first with
    | nil => rw [lineStep_of_blank blank]
    | cons d first =>
      have start : trimStart (c :: d :: first) = trimStart (d :: first) :=
        List.dropWhile_cons_of_pos blank
      simp [lineStep, ends, finishLine, start]

theorem finishLine_foldr_trimStart (cs : List Char) :
    finishLine ((trimStart cs).foldr lineStep ([], [])) =
      (finishLine (cs.foldr lineStep ([], []))).modifyHead trimStart := by
  induction cs with
  | nil => rfl
  | cons c cs ih =>
    by_cases blank : isBlank c = true
    · have start : trimStart (c :: cs) = trimStart cs := List.dropWhile_cons_of_pos blank
      rw [start, ih, List.foldr_cons, finishLine_lineStep_of_blank blank]
    · have start : trimStart (c :: cs) = c :: cs := List.dropWhile_cons_of_neg blank
      have inside : c ≠ '\n' := ne_lineBreak_of_solid (by simpa using blank)
      have first : ∀ rest, trimStart (c :: rest) = c :: rest := fun rest =>
        List.dropWhile_cons_of_neg blank
      rw [start, List.foldr_cons, lineStep, if_neg inside, if_neg fun nothing => blank nothing.1]
      simp [finishLine, first]

/-! Words. -/

theorem exists_foldr_wordStep (cs : List Char) :
    ∃ first parts, cs.splitOnP isBlank = first :: parts ∧
      cs.foldr wordStep ([], []) = (first, parts.filter (!·.isEmpty)) := by
  induction cs with
  | nil => exact ⟨[], [], rfl, rfl⟩
  | cons c cs ih =>
    obtain ⟨first, parts, split, fold⟩ := ih
    rw [List.foldr_cons, fold, List.splitOnP_cons_eq_if_modifyHead, split, wordStep]
    by_cases blank : isBlank c = true
    · refine ⟨[], first :: parts, if_pos blank, ?_⟩
      rw [if_pos blank]
      cases first <;> rfl
    · refine ⟨c :: first, parts, if_neg blank, ?_⟩
      rw [if_neg blank]

theorem words_eq (cs : List Char) : words cs = (cs.splitOnP isBlank).filter (!·.isEmpty) := by
  obtain ⟨first, parts, split, fold⟩ := exists_foldr_wordStep cs
  rw [words, fold, split]
  cases first <;> rfl

theorem words_append (blank : isBlank c = true) (front cs : List Char) :
    words (front ++ c :: cs) = words front ++ words cs := by
  rw [words_eq, List.splitOnP_append_cons front cs blank, List.filter_append, ← words_eq, ← words_eq]

theorem words_cons (blank : isBlank c = true) (cs : List Char) : words (c :: cs) = words cs :=
  words_append blank [] cs

theorem words_trimStart (cs : List Char) : words (trimStart cs) = words cs := by
  induction cs with
  | nil => rfl
  | cons c cs ih =>
    by_cases blank : isBlank c = true
    · rw [words_cons blank, ← ih]
      exact congrArg words (List.dropWhile_cons_of_pos blank)
    · exact congrArg words (List.dropWhile_cons_of_neg blank)

theorem words_trimEnd (cs : List Char) : words (trimEnd cs) = words cs := by
  have still : ∀ c, isBlank c = true → wordStep c ([], []) = ([], []) := fun c blank => if_pos blank
  rw [words, words, foldr_trimEnd still]

theorem words_unlines (parts : List (List Char)) : words (unlines parts) = parts.flatMap words := by
  induction parts with
  | nil => rfl
  | cons part parts ih =>
    cases parts with
    | nil => simp [unlines]
    | cons next parts =>
      rw [unlines_cons (List.cons_ne_nil next parts), words_append rfl, ih]
      exact List.flatMap_cons.symm

theorem words_of_all_isBlank {line : List Char} (blank : line.all isBlank = true) :
    words line = [] := by
  rw [← words_trimEnd, (all_isBlank_iff line).mp blank]
  rfl

theorem flatMap_words_filter (parts : List (List Char)) :
    (parts.filter fun line => !line.all isBlank).flatMap words = parts.flatMap words := by
  induction parts with
  | nil => rfl
  | cons part parts ih =>
    rw [List.flatMap_cons, ← ih]
    cases kind : part.all isBlank with
    | true => rw [List.filter_cons_of_neg (by simp [kind]), words_of_all_isBlank kind, List.nil_append]
    | false => rw [List.filter_cons_of_pos (by simp [kind]), List.flatMap_cons]

theorem words_eq_flatMap (cs : List Char) : words cs = (solidLines cs).flatMap words := by
  conv => lhs; rw [← unlines_lines cs, words_unlines]
  exact (flatMap_words_filter (lines cs)).symm

theorem flatMap_words_map_trimEnd (parts : List (List Char)) :
    (parts.map trimEnd).flatMap words = parts.flatMap words := by
  rw [List.flatMap_map]
  exact List.flatMap_congr fun line _ => words_trimEnd line

theorem flatMap_words_modifyHead (parts : List (List Char)) :
    (parts.modifyHead trimStart).flatMap words = parts.flatMap words := by
  cases parts with
  | nil => rfl
  | cons part parts => rw [List.modifyHead_cons, List.flatMap_cons, words_trimStart, List.flatMap_cons]

end

end PromptPack.Text
