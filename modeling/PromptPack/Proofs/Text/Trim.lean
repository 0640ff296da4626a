import PromptPack.Proofs.Text.SolidLines

/-! Trimming a text of several lines. The first line that holds anything loses the white space in
front of it and the last such line that behind it; the lines between them stay. Main statement:
`exists_lines_trim`. -/

namespace PromptPack.Text

section

variable {front behind : List Char}

theorem trimStart_append_of_blank (blank : Blank front) (cs : List Char) :
    trimStart (front ++ cs) = trimStart cs :=
  List.dropWhile_append_of_pos blank

theorem trimStart_append_of_not_blank (solid : ¬ Blank front) (cs : List Char) :
    trimStart (front ++ cs) = trimStart front ++ cs := by
  have left : (trimStart front).isEmpty = false := by
    simpa [trimStart, Blank] using solid
  unfold trimStart at left ⊢
  rw [List.dropWhile_append, left]
  rfl

theorem trimEnd_append_of_blank (blank : Blank behind) (cs : List Char) :
    trimEnd (cs ++ behind) = trimEnd cs := by
  have reversed : ∀ c ∈ behind.reverse, isBlank c = true := by simpa [Blank] using blank
  unfold trimEnd dropEndWhile
  rw [List.reverse_append, List.dropWhile_append_of_pos reversed]

theorem trimEnd_append_of_not_blank (solid : ¬ Blank behind) (cs : List Char) :
    trimEnd (cs ++ behind) = cs ++ trimEnd behind := by
  have left : (behind.reverse.dropWhile isBlank).isEmpty = false := by
    simpa [Blank] using solid
  unfold trimEnd dropEndWhile
  rw [List.reverse_append, List.dropWhile_append, left]
  simp

theorem not_blank_of_trimEnd {front behind : List Char} (whole : trimEnd cs = front ++ behind)
    (some : behind ≠ []) : ¬ Blank behind := by
  intro blank
  have again := trimEnd_trimEnd cs
  rw [whole, trimEnd_append_of_blank blank] at again
  have shorter := (trimEnd_sublist front).length_le
  have longer := List.length_pos_iff.mpr some
  rw [again, List.length_append] at shorter
  omega

theorem trim_of_blank (blank : Blank front) : trim front = [] := by
  rw [trim, trimStart_of_blank blank]
  rfl

end

/-! The lines of a trimmed text. -/

section

variable {first : List Char} {parts others : List (List Char)}

theorem blank_unlines_iff (parts : List (List Char)) :
    Blank (unlines parts) ↔ ∀ line ∈ parts, Blank line := by
  cases parts with
  | nil => simp [unlines, Blank]
  | cons first parts =>
    have lineBreak : isBlank '\n' = true := rfl
    rw [unlines_eq, List.forall_mem_cons]
    simp only [Blank, newLines, List.mem_append, List.mem_flatMap, List.mem_cons]
    constructor
    · intro all
      refine ⟨fun c member => all c (.inl member), fun line listed c member => ?_⟩
      exact all c (.inr ⟨line, listed, .inr member⟩)
    · rintro ⟨here, there⟩ c (member | ⟨line, listed, rfl | member⟩)
      · exact here c member
      · exact lineBreak
      · exact there line listed c member

theorem blank_lines_iff (cs : List Char) : (∀ line ∈ lines cs, Blank line) ↔ Blank cs := by
  rw [← blank_unlines_iff, unlines_lines]

theorem blank_newLines (blank : ∀ line ∈ parts, Blank line) : Blank (newLines parts) := by
  intro c member
  obtain ⟨line, listed, member⟩ := List.mem_flatMap.mp member
  rcases List.mem_cons.mp member with rfl | member
  · rfl
  · exact blank line listed c member

theorem trimStart_unlines (blank : ∀ line ∈ others, Blank line) (solid : ¬ Blank first)
    (parts : List (List Char)) :
    trimStart (unlines (others ++ first :: parts)) = trimStart first ++ newLines parts := by
  induction others with
  | nil => rw [List.nil_append, unlines_eq, trimStart_append_of_not_blank solid]
  | cons line others ih =>
    obtain ⟨here, there⟩ := List.forall_mem_cons.mp blank
    rw [List.cons_append, unlines_cons (by simp), trimStart_append_of_blank here]
    exact ih there

theorem trimEnd_newLines (blank : ∀ line ∈ others, Blank line) (solid : ¬ Blank first)
    (cs : List Char) (parts : List (List Char)) :
    trimEnd (cs ++ newLines (parts ++ first :: others)) =
      cs ++ newLines (parts ++ [trimEnd first]) := by
  have parted : cs ++ newLines (parts ++ first :: others) =
      cs ++ newLines parts ++ ['\n'] ++ first ++ newLines others := by simp
  rw [parted, trimEnd_append_of_blank (blank_newLines blank), trimEnd_append_of_not_blank solid]
  simp

theorem exists_first_solid (parts : List (List Char)) :
    (∀ line ∈ parts, Blank line) ∨ ∃ front first behind, parts = front ++ first :: behind ∧
      (∀ line ∈ front, Blank line) ∧ ¬ Blank first := by
  induction parts with
  | nil => exact .inl nofun
  | cons line parts ih =>
    by_cases blank : Blank line
    · rcases ih with all | ⟨front, first, behind, rfl, blanks, solid⟩
      · exact .inl (List.forall_mem_cons.mpr ⟨blank, all⟩)
      · exact .inr ⟨line :: front, first, behind, rfl, List.forall_mem_cons.mpr ⟨blank, blanks⟩,
          solid⟩
    · exact .inr ⟨[], line, parts, rfl, nofun, blank⟩

theorem exists_last_solid (parts : List (List Char)) :
    (∀ line ∈ parts, Blank line) ∨ ∃ front last behind, parts = front ++ last :: behind ∧
      ¬ Blank last ∧ ∀ line ∈ behind, Blank line := by
  rcases exists_first_solid parts.reverse with all | ⟨behind, last, front, joined, blanks, solid⟩
  · exact .inl fun line listed => all line (List.mem_reverse.mpr listed)
  · refine .inr ⟨front.reverse, last, behind.reverse, ?_, solid, ?_⟩
    · rw [← List.reverse_reverse parts, joined]
      simp
    · exact fun line listed => blanks line (List.mem_reverse.mp listed)

/-- The first line of a trimmed text, from the lines that hold something: it loses the white space in
front, and that at its end if no other line follows. -/
def firstLine : List (List Char) → List Char
  | [] => []
  | [line] => trim line
  | line :: _ :: _ => trimStart line

theorem all_isBlank_of_solid {line : List Char} (solid : ¬ Blank line) :
    line.all isBlank = false := by
  simpa [Blank] using solid

theorem filter_solid_of_blank (blank : ∀ line ∈ parts, Blank line) :
    (parts.filter fun line => !line.all isBlank) = [] := by
  simpa [List.filter_eq_nil_iff, Blank] using blank

theorem lines_trimEnd_of_blank {cs : List Char} (inline : '\n' ∉ cs)
    (blank : ∀ line ∈ others, Blank line) :
    lines (trimEnd (cs ++ newLines others)) = [trimEnd cs] := by
  rw [trimEnd_append_of_blank (blank_newLines blank)]
  exact lines_of_inline fun ends => inline ((trimEnd_sublist cs).subset ends)

theorem lines_trimEnd_of_solid {cs : List Char} (inline : '\n' ∉ cs)
    (inlines : ∀ line ∈ parts ++ first :: others, '\n' ∉ line)
    (blank : ∀ line ∈ others, Blank line) (solid : ¬ Blank first) :
    lines (trimEnd (cs ++ newLines (parts ++ first :: others))) =
      cs :: (parts ++ [trimEnd first]) := by
  rw [trimEnd_newLines blank solid]
  apply lines_newLines
  intro line listed
  simp only [List.mem_cons, List.mem_append, List.not_mem_nil, or_false] at listed
  rcases listed with rfl | listed | rfl
  · exact inline
  · exact inlines line (List.mem_append_left _ listed)
  · exact fun ends => inlines first (by simp) ((trimEnd_sublist first).subset ends)

theorem firstLine_of_several {line : List Char} {rest : List (List Char)} (some : rest ≠ []) :
    firstLine (line :: rest) = trimStart line := by
  obtain ⟨next, rest, rfl⟩ := List.exists_cons_of_ne_nil some
  rfl

/-- The lines of a trimmed text behind the first are lines of the text, or what is left of one when
its end is cut off. -/
theorem exists_lines_trim (cs : List Char) :
    ∃ rest, lines (trim cs) = firstLine (solidLines cs) :: rest ∧
      ∀ line ∈ rest, ∃ whole ∈ lines cs, line <+: whole := by
  have inline := notMem_of_mem_lines cs
  rcases exists_first_solid (lines cs) with all | ⟨front, first, tail, split, blanks, solid⟩
  · have nothing : solidLines cs = [] := filter_solid_of_blank all
    rw [nothing, trim_of_blank ((blank_lines_iff cs).mp all)]
    exact ⟨[], rfl, nofun⟩
  · have start : trimStart cs = trimStart first ++ newLines tail := by
      conv => lhs; rw [← unlines_lines cs, split]
      exact trimStart_unlines blanks solid tail
    have solids : solidLines cs = first :: tail.filter fun line => !line.all isBlank := by
      rw [solidLines, split, List.filter_append, filter_solid_of_blank blanks, List.nil_append,
        List.filter_cons_of_pos (by simp [all_isBlank_of_solid solid])]
    have inFirst : '\n' ∉ trimStart first := fun ends => inline first (by simp [split])
      ((List.dropWhile_sublist isBlank).subset ends)
    have inTail : ∀ line ∈ tail, '\n' ∉ line := fun line listed => inline line (by simp [split, listed])
    rw [trim, start, solids]
    rcases exists_last_solid tail with all | ⟨mid, last, behind, rfl, solidLast, blanksBehind⟩
    · rw [filter_solid_of_blank all, lines_trimEnd_of_blank inFirst all]
      exact ⟨[], rfl, nofun⟩
    · have several : (mid ++ last :: behind).filter (fun line => !line.all isBlank) ≠ [] := by
        apply List.ne_nil_of_mem
        exact List.mem_filter.mpr ⟨List.mem_append_right mid List.mem_cons_self,
          by simp [all_isBlank_of_solid solidLast]⟩
      rw [firstLine_of_several several, lines_trimEnd_of_solid inFirst inTail blanksBehind solidLast]
      refine ⟨mid ++ [trimEnd last], rfl, ?_⟩
      intro line listed
      rcases List.mem_append.mp listed with listed | listed
      · exact ⟨line, by simp [split, listed], List.prefix_rfl⟩
      · rw [List.mem_singleton.mp listed]
        exact ⟨last, by simp [split], trimEnd_prefix last⟩

end

end PromptPack.Text
