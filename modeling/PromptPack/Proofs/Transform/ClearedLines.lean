import PromptPack.Proofs.Text.Trim
import PromptPack.Proofs.Transform.Whitespace
import PromptPack.Transform.Markdown

/-! The lines that are left of a markdown text. Headings and quotes are emptied behind the cutting of
line breaks and in front of the trimming, so the empty lines they leave can make a long run, and an
indented one can come to the front of the text. Main statement: `minifyMarkdown_form`. -/

namespace PromptPack.Transform

open Text

/-- One to six hash signs, a blank or a tab, and anything. -/
def Heading (line : List Char) : Prop :=
  ∃ level mark rest, 1 ≤ level ∧ level ≤ 6 ∧ (mark = ' ' ∨ mark = '\t') ∧
    line = List.replicate level '#' ++ mark :: rest

def Quote (line : List Char) : Prop := ∃ rest, line = '>' :: rest

def Unwanted (stripHeadings stripQuotes : Bool) (line : List Char) : Prop :=
  stripHeadings = true ∧ Heading line ∨ stripQuotes = true ∧ Quote line

section

variable {line other : List Char}

theorem isHeading_iff : isHeading line = true ↔ Heading line := by
  unfold isHeading Heading
  constructor
  · intro heading
    simp only [Bool.and_eq_true, decide_eq_true_eq, Option.any_eq_true, Bool.or_eq_true,
      beq_iff_eq] at heading
    obtain ⟨⟨some, few⟩, mark, behind, blank⟩ := heading
    obtain ⟨rest, split⟩ := List.head?_eq_some_iff.mp behind
    have signs : line.takeWhile (· == '#') =
        List.replicate (line.takeWhile (· == '#')).length '#' := by
      apply List.eq_replicate_of_mem
      intro c member
      simpa using List.mem_takeWhile_imp member
    refine ⟨(line.takeWhile (· == '#')).length, mark, rest, some, few, blank, ?_⟩
    rw [← split, ← signs]
    conv => lhs; rw [← List.take_append_drop (line.takeWhile (· == '#')).length line]
    rw [← List.prefix_iff_eq_take.mp (List.takeWhile_prefix _)]
  · rintro ⟨level, mark, rest, some, few, blank, rfl⟩
    have other : (mark == '#') = false := by rcases blank with rfl | rfl <;> rfl
    have signs : (List.replicate level '#' ++ mark :: rest).takeWhile (· == '#') =
        List.replicate level '#' := by
      rw [List.takeWhile_append_of_pos (by simp), List.takeWhile_cons_of_neg (by simp [other]),
        List.append_nil]
    simp only [signs, List.length_replicate]
    rw [List.drop_left' (List.length_replicate ..)]
    simp only [List.head?_cons, Option.any_some, Bool.and_eq_true, decide_eq_true_eq,
      Bool.or_eq_true, beq_iff_eq]
    exact ⟨⟨by omega, few⟩, blank⟩

theorem isQuote_iff : isQuote line = true ↔ Quote line := by
  rw [isQuote, beq_iff_eq, List.head?_eq_some_iff, Quote]

theorem Unwanted.of_prefix {stripHeadings stripQuotes : Bool}
    (unwanted : Unwanted stripHeadings stripQuotes line) (start : line <+: other) :
    Unwanted stripHeadings stripQuotes other := by
  obtain ⟨rest, rfl⟩ := start
  rcases unwanted with ⟨on, level, mark, behind, some, few, blank, rfl⟩ | ⟨on, behind, rfl⟩
  · exact .inl ⟨on, level, mark, behind ++ rest, some, few, blank, by simp⟩
  · exact .inr ⟨on, behind ++ rest, rfl⟩

end

section

variable (stripHeadings stripQuotes : Bool)

def cleared (line : List Char) : Bool := stripHeadings && isHeading line || stripQuotes && isQuote line

theorem cleared_iff (line : List Char) :
    cleared stripHeadings stripQuotes line = true ↔ Unwanted stripHeadings stripQuotes line := by
  rw [cleared, Bool.or_eq_true, Bool.and_eq_true, Bool.and_eq_true, isHeading_iff, isQuote_iff,
    Unwanted]

instance (line : List Char) : Decidable (Unwanted stripHeadings stripQuotes line) :=
  decidable_of_iff _ (cleared_iff stripHeadings stripQuotes line)

def stays (line : List Char) : Bool :=
  !cleared stripHeadings stripQuotes line && !line.all isBlank

def Gone (line : List Char) : Prop := line = [] ∨ Unwanted stripHeadings stripQuotes line

/-- Between two lines that stay there are two in a row of which nothing is left, and not only because
nothing was on them. -/
def Gapped (parts : List (List Char)) : Prop :=
  ∃ front first second behind, parts = front ++ first :: second :: behind ∧
    Gone stripHeadings stripQuotes first ∧ Gone stripHeadings stripQuotes second ∧
    (Unwanted stripHeadings stripQuotes first ∨ Unwanted stripHeadings stripQuotes second) ∧
    (∃ line ∈ front, stays stripHeadings stripQuotes line = true) ∧
    ∃ line ∈ behind, stays stripHeadings stripQuotes line = true

end

/-! Clearing lines. -/

section

variable {p q : List Char → Bool} {cs : List Char}

def clearLine (p : List Char → Bool) (line : List Char) : List Char := if p line then [] else line

theorem lines_clearLines (p : List Char → Bool) (cs : List Char) :
    lines (clearLines p cs) = (lines cs).map (clearLine p) := by
  apply lines_unlines (mt List.map_eq_nil_iff.mp (splitOn_ne_nil '\n' cs))
  intro line listed
  obtain ⟨whole, member, rfl⟩ := List.mem_map.mp listed
  split
  · exact List.not_mem_nil
  · exact notMem_of_mem_lines cs whole member

theorem clearLines_clearLines (empty : q [] = false) (cs : List Char) :
    clearLines q (clearLines p cs) = clearLines (fun line => p line || q line) cs := by
  rw [clearLines, lines_clearLines, clearLines, List.map_map]
  congr 1
  apply List.map_congr_left
  intro line _
  cases first : p line <;> simp [clearLine, first, empty]

theorem clearLines_of_none (none : ∀ line, p line = false) (cs : List Char) :
    clearLines p cs = cs := by
  simp [clearLines, none, unlines_lines]

/-- Reducing ends with clearing the unwanted lines and trimming the whole. -/
theorem minifyMarkdown_eq (stripHeadings stripQuotes : Bool) (cs : List Char) :
    minifyMarkdown stripHeadings stripQuotes cs =
      trim (clearLines (cleared stripHeadings stripQuotes) (collapseBreaks (stripMarkup cs))) := by
  cases stripHeadings <;> cases stripQuotes
  · have none : ∀ line, cleared false false line = false := fun _ => rfl
    rw [clearLines_of_none none]
    rfl
  · rfl
  · have alone : cleared true false = isHeading := by
      funext line
      exact Bool.or_false _
    rw [alone]
    rfl
  · exact congrArg trim (clearLines_clearLines rfl _)

end

/-! Runs of line breaks in a trimmed text. -/

theorem not_blank_of_head {c : Char} (solid : isBlank c = false) (cs : List Char) :
    ¬ Blank (c :: cs) := fun blank => by
  have wrong := blank c List.mem_cons_self
  rw [solid] at wrong
  cases wrong

theorem run_trim_iff (cs : List Char) :
    breakRun <:+: trim cs ↔
      ∃ front behind, cs = front ++ breakRun ++ behind ∧ ¬ Blank front ∧ ¬ Blank behind := by
  constructor
  · intro run
    induction cs using gap_induction with
    | blank gap blank =>
      rw [trim_of_blank blank] at run
      simp [breakRun] at run
    | append gap c cs blank solid _ =>
      have trimmed : trim (gap ++ c :: cs) = c :: trimEnd cs := by
        rw [trim, trimStart_append blank solid]
        exact trimEnd_append solid [] cs
      rw [trimmed] at run
      obtain ⟨front, behind, joined⟩ := run
      obtain ⟨trail, whole⟩ := trimEnd_prefix cs
      cases front with
      | nil =>
        rw [List.nil_append, breakRun] at joined
        exact absurd (List.cons.inj joined).1.symm (ne_lineBreak_of_solid solid)
      | cons d front =>
        obtain ⟨rfl, rest⟩ := List.cons.inj joined
        replace rest : front ++ breakRun ++ behind = trimEnd cs := rest
        refine ⟨gap ++ d :: front, behind ++ trail, ?_, ?_, ?_⟩
        · rw [← whole, ← rest]
          simp
        · exact fun all => not_blank_of_head solid front
            (all.sublist (List.sublist_append_right ..))
        · intro all
          rw [List.append_assoc] at rest
          apply not_blank_of_trimEnd rest.symm (by simp [breakRun])
          intro e member
          rcases List.mem_append.mp member with member | member
          · obtain rfl := List.eq_of_mem_replicate (show e ∈ List.replicate 3 '\n' from member)
            rfl
          · exact all e (List.mem_append_left trail member)
  · rintro ⟨front, behind, rfl, solid, solidBehind⟩
    rw [trim, List.append_assoc, trimStart_append_of_not_blank solid, ← List.append_assoc,
      trimEnd_append_of_not_blank solidBehind]
    exact ⟨trimStart front, trimEnd behind, rfl⟩

theorem lines_run (front behind : List Char) :
    lines (front ++ breakRun ++ behind) = lines front ++ [] :: [] :: lines behind := by
  have parted : front ++ breakRun ++ behind = front ++ '\n' :: '\n' :: '\n' :: behind := by
    simp [breakRun]
  rw [parted, lines_append_lineBreak, lines_lineBreak, lines_lineBreak]

theorem unlines_run {front behind : List (List Char)} (some : front ≠ [])
    (someBehind : behind ≠ []) :
    unlines (front ++ [] :: [] :: behind) = unlines front ++ breakRun ++ unlines behind := by
  obtain ⟨first, front, rfl⟩ := List.exists_cons_of_ne_nil some
  obtain ⟨next, behind, rfl⟩ := List.exists_cons_of_ne_nil someBehind
  rw [List.cons_append, unlines_eq, unlines_eq, unlines_eq]
  simp [breakRun]

theorem run_trim_iff_lines (cs : List Char) :
    breakRun <:+: trim cs ↔ ∃ front behind, lines cs = front ++ [] :: [] :: behind ∧
      (∃ line ∈ front, ¬ Blank line) ∧ ∃ line ∈ behind, ¬ Blank line := by
  have solid_iff : ∀ parts, (∃ line ∈ parts, ¬ Blank line) ↔ ¬ Blank (unlines parts) := by
    intro parts
    rw [blank_unlines_iff]
    simp
  rw [run_trim_iff]
  constructor
  · rintro ⟨front, behind, rfl, solid, solidBehind⟩
    refine ⟨lines front, lines behind, lines_run front behind, ?_, ?_⟩
    · rwa [solid_iff, unlines_lines]
    · rwa [solid_iff, unlines_lines]
  · rintro ⟨front, behind, split, solid, solidBehind⟩
    refine ⟨unlines front, unlines behind, ?_, (solid_iff _).mp solid,
      (solid_iff _).mp solidBehind⟩
    rw [← unlines_lines cs, split]
    apply unlines_run
    · rintro rfl
      simp at solid
    · rintro rfl
      simp at solidBehind

section

variable (stripHeadings stripQuotes : Bool) (cs : List Char)

theorem stays_iff (line : List Char) :
    stays stripHeadings stripQuotes line = true ↔
      ¬ Blank (clearLine (cleared stripHeadings stripQuotes) line) := by
  unfold stays clearLine
  cases gone : cleared stripHeadings stripQuotes line with
  | true => simp [Blank]
  | false => simp [Blank]

theorem gone_iff (line : List Char) :
    Gone stripHeadings stripQuotes line ↔
      clearLine (cleared stripHeadings stripQuotes) line = [] := by
  unfold Gone clearLine
  rw [← cleared_iff]
  cases cleared stripHeadings stripQuotes line <;> simp

theorem not_unwanted_clearLine (line : List Char) :
    ¬ Unwanted stripHeadings stripQuotes
      (clearLine (cleared stripHeadings stripQuotes) line) := by
  unfold clearLine
  split
  · rintro (⟨-, level, mark, rest, -, -, -, nothing⟩ | ⟨-, rest, nothing⟩)
    · simp at nothing
    · cases nothing
  · next kept => exact fun unwanted => kept ((cleared_iff _ _ line).mpr unwanted)

theorem solidLines_clearLines :
    solidLines (clearLines (cleared stripHeadings stripQuotes) cs) =
      (lines cs).filter (stays stripHeadings stripQuotes) := by
  rw [solidLines, lines_clearLines, List.filter_map]
  have kept : ∀ line, (!(clearLine (cleared stripHeadings stripQuotes) line).all isBlank) =
      stays stripHeadings stripQuotes line := by
    intro line
    rw [Bool.eq_iff_iff, stays_iff]
    simp [Blank]
  simp only [Function.comp_def, kept]
  conv => rhs; rw [← List.map_id ((lines cs).filter _)]
  apply List.map_congr_left
  intro line listed
  have wanted := (List.mem_filter.mp listed).2
  simp only [stays, Bool.and_eq_true, Bool.not_eq_true'] at wanted
  rw [clearLine, wanted.1]
  rfl

/-- Where no line break was left over there are three in a row only where a line was cleared. -/
theorem run_trim_clearLines_iff (none : ¬ breakRun <:+: cs) :
    breakRun <:+: trim (clearLines (cleared stripHeadings stripQuotes) cs) ↔
      Gapped stripHeadings stripQuotes (lines cs) := by
  rw [run_trim_iff_lines, lines_clearLines]
  constructor
  · rintro ⟨front, behind, split, solid, solidBehind⟩
    obtain ⟨front, others, lines_eq, rfl, rest⟩ := List.map_eq_append_iff.mp split
    obtain ⟨first, others, rfl, gone, rest⟩ := List.map_eq_cons_iff.mp rest
    obtain ⟨second, behind, rfl, goneToo, rfl⟩ := List.map_eq_cons_iff.mp rest
    obtain ⟨_, listed, solid⟩ := solid
    obtain ⟨line, member, rfl⟩ := List.mem_map.mp listed
    obtain ⟨_, listed, solidBehind⟩ := solidBehind
    obtain ⟨other, memberBehind, rfl⟩ := List.mem_map.mp listed
    have goneBoth := And.intro ((gone_iff _ _ first).mpr gone) ((gone_iff _ _ second).mpr goneToo)
    refine ⟨front, first, second, behind, lines_eq, goneBoth.1, goneBoth.2, ?_,
      ⟨line, member, (stays_iff _ _ line).mpr solid⟩,
      ⟨other, memberBehind, (stays_iff _ _ other).mpr solidBehind⟩⟩
    -- Two lines that were empty before would be a run in the text.
    by_contra wanted
    obtain ⟨wanted, wantedToo⟩ := not_or.mp wanted
    obtain rfl := goneBoth.1.resolve_right wanted
    obtain rfl := goneBoth.2.resolve_right wantedToo
    apply none
    rw [← unlines_lines cs, lines_eq,
      unlines_run (List.ne_nil_of_mem member) (List.ne_nil_of_mem memberBehind)]
    exact ⟨_, _, rfl⟩
  · rintro ⟨front, first, second, behind, split, gone, goneToo, -, ⟨line, member, solid⟩, other,
      memberBehind, solidBehind⟩
    rw [gone_iff] at gone goneToo
    rw [stays_iff] at solid solidBehind
    refine ⟨front.map (clearLine _), behind.map (clearLine _), ?_,
      ⟨_, List.mem_map_of_mem member, solid⟩, _, List.mem_map_of_mem memberBehind, solidBehind⟩
    rw [split, List.map_append, List.map_cons, List.map_cons, gone, goneToo]

end

def clearedFrom (cs : List Char) : List (List Char) := lines (collapseBreaks (stripMarkup cs))

/-- Behind the first line nothing of a kind that is switched off is left. The first line is of such a
kind exactly if the first line that stays is one when it is trimmed. A run of three line breaks is
left exactly where unwanted lines were cleared between lines that stay. -/
theorem minifyMarkdown_form (stripHeadings stripQuotes : Bool) (cs : List Char) :
    (∀ line ∈ (lines (minifyMarkdown stripHeadings stripQuotes cs)).tail,
        ¬ Unwanted stripHeadings stripQuotes line) ∧
      ((∃ line ∈ lines (minifyMarkdown stripHeadings stripQuotes cs),
          Unwanted stripHeadings stripQuotes line) ↔
        Unwanted stripHeadings stripQuotes
          (firstLine ((clearedFrom cs).filter (stays stripHeadings stripQuotes)))) ∧
      (breakRun <:+: minifyMarkdown stripHeadings stripQuotes cs ↔
        Gapped stripHeadings stripQuotes (clearedFrom cs)) := by
  obtain ⟨rest, split, cut⟩ := exists_lines_trim
    (clearLines (cleared stripHeadings stripQuotes) (collapseBreaks (stripMarkup cs)))
  rw [← minifyMarkdown_eq, solidLines_clearLines] at split
  have wanted : ∀ line ∈ rest, ¬ Unwanted stripHeadings stripQuotes line := by
    intro line listed unwanted
    obtain ⟨whole, member, start⟩ := cut line listed
    rw [lines_clearLines] at member
    obtain ⟨line, -, rfl⟩ := List.mem_map.mp member
    exact not_unwanted_clearLine _ _ _ (unwanted.of_prefix start)
  refine ⟨by rwa [split], ?_, ?_⟩
  · rw [split, List.exists_mem_cons_iff]
    apply or_iff_left
    rintro ⟨line, listed, unwanted⟩
    exact wanted line listed unwanted
  · rw [minifyMarkdown_eq]
    exact run_trim_clearLines_iff _ _ _ (not_run_collapseBreaks _)

/-- A heading between blank lines leaves four line breaks, and an indented heading or quote at the
front loses its indent when it is too late to clear it. -/
theorem minifyMarkdown_leaves_lines :
    minifyMarkdown true false "a\n\n# T\n\nb".toList = "a\n\n\n\nb".toList ∧
      breakRun <:+: minifyMarkdown true false "a\n\n# T\n\nb".toList ∧
      (∃ line ∈ lines (minifyMarkdown true false "  # T\nb".toList), Heading line) ∧
      ∃ line ∈ lines (minifyMarkdown false true "  > q\nb".toList), Quote line := by
  refine ⟨by decide +kernel, by decide +kernel, ⟨"# T".toList, by decide +kernel, ?_⟩,
    "> q".toList, by decide +kernel, " q".toList, rfl⟩
  exact ⟨1, ' ', ['T'], by decide, by decide, .inl rfl, rfl⟩

end PromptPack.Transform
