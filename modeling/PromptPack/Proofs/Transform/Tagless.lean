import PromptPack.Proofs.Transform.Subsequence

/-! What is left of the angle brackets of a markdown text. The pass over the tags leaves an opening
bracket only where a closing one follows at once or none follows at all. The passes behind it take
out line breaks, whole lines and the blanks around the text: they part no `<>`, and no bracket comes
to stand behind one that it did not stand behind before. Main statement: `minifyMarkdown_tagless`. -/

namespace PromptPack.Transform

open Text

/-- An opening bracket, some characters that are no closing bracket, and a closing one. -/
def HasTag (cs : List Char) : Prop :=
  ∃ inner, inner ≠ [] ∧ '>' ∉ inner ∧ '<' :: inner ++ ['>'] <:+: cs

def HasComment (cs : List Char) : Prop :=
  ∃ text, "<!--".toList ++ text ++ "-->".toList <:+: cs

/-- A closing bracket behind an opening one is the very next character. -/
def Tagless : List Char → Prop
  | [] => True
  | c :: cs => (c = '<' → cs.head? = some '>' ∨ '>' ∉ cs) ∧ Tagless cs

section

variable {c : Char} {front cs out : List Char}

theorem Tagless.right (tagless : Tagless (front ++ cs)) : Tagless cs := by
  induction front with
  | nil => exact tagless
  | cons c front ih => exact ih tagless.2

/-- What is behind a text may be thinned out while a closing bracket that comes first stays there. -/
theorem Tagless.append_of_sublist (tagless : Tagless (front ++ cs)) (kept : out.Sublist cs)
    (next : cs.head? = some '>' → out.head? = some '>' ∨ '>' ∉ out) (rest : Tagless out) :
    Tagless (front ++ out) := by
  induction front with
  | nil => exact rest
  | cons c front ih =>
    refine ⟨fun opening => ?_, ih tagless.2⟩
    rcases tagless.1 opening with pair | none
    · cases front with
      | nil => exact next pair
      | cons d front => exact .inl pair
    · exact .inr fun closing => none (((List.Sublist.refl front).append kept).subset closing)

theorem Tagless.left (tagless : Tagless (front ++ cs)) : Tagless front := by
  have nothing : Tagless (front ++ []) :=
    tagless.append_of_sublist (List.nil_sublist cs) (fun _ => .inr List.not_mem_nil) trivial
  rwa [List.append_nil] at nothing

theorem Tagless.not_infix (tagless : Tagless cs) (apart : c ≠ '>') (inner : List Char) :
    ¬ '<' :: c :: inner ++ ['>'] <:+: cs := by
  rintro ⟨before, behind, rfl⟩
  rw [List.append_assoc] at tagless
  obtain ⟨bracket, -⟩ := tagless.right
  rcases bracket rfl with pair | none
  · exact apart (Option.some.inj pair)
  · exact none (by simp)

theorem Tagless.not_hasTag (tagless : Tagless cs) : ¬ HasTag cs := by
  rintro ⟨inner, nonempty, unclosed, tag⟩
  cases inner with
  | nil => exact nonempty rfl
  | cons d inner => exact tagless.not_infix (Ne.symm (List.ne_of_not_mem_cons unclosed)) inner tag

theorem Tagless.not_hasComment (tagless : Tagless cs) : ¬ HasComment cs := by
  rintro ⟨text, comment⟩
  have tag : '<' :: '!' :: ("--".toList ++ text ++ "--".toList) ++ ['>'] <:+: cs := by
    simpa using comment
  exact tagless.not_infix (by decide) _ tag

/-! The pass over the tags. -/

theorem notMem_of_afterTag? (none : afterTag? cs = none) : '>' ∉ cs := by
  unfold afterTag? at none
  split at none
  · next unclosed =>
    intro closing
    simpa using List.dropWhile_eq_nil_iff.mp unclosed _ closing
  · cases none

theorem brackets_of_tags (none : tags '<' cs = none) : cs.head? = some '>' ∨ '>' ∉ cs := by
  unfold tags at none
  split at none
  · split at none
    · cases none
    · next missing => exact .inr (notMem_of_afterTag? missing)
  · next first =>
    cases cs with
    | nil => exact .inr List.not_mem_nil
    | cons d cs => exact .inl (by simpa using first)

theorem tags_of_ne (other : c ≠ '<') (cs : List Char) : tags c cs = none := by
  unfold tags
  rw [if_neg (by simp [other])]

theorem tagless_tags (cs : List Char) : Tagless (tags.apply cs) := by
  -- A tag that is taken out leaves a shorter text, not the tail.
  induction size : cs.length using Nat.strongRecOn generalizing cs with
  | ind n ih =>
    cases cs with
    | nil => rw [Removal.apply, scan_nil]; trivial
    | cons c cs =>
      rw [List.length_cons] at size
      cases found : tags c cs with
      | some left =>
        obtain ⟨rest, suffix⟩ := left
        have := suffix.length_le
        rw [Removal.apply_cons_of_some suffix found]
        exact ih rest.length (by omega) rest rfl
      | none =>
        rw [Removal.apply_cons_of_none found]
        refine ⟨?_, ih cs.length (by omega) cs rfl⟩
        rintro rfl
        rcases brackets_of_tags found with pair | none
        · obtain ⟨rest, rfl⟩ := List.head?_eq_some_iff.mp pair
          rw [Removal.apply_cons_of_none (tags_of_ne (by decide) rest)]
          exact .inl rfl
        · exact .inr fun closing => none ((tags.apply_sublist cs).subset closing)

/-! The passes behind it. -/

theorem Tagless.collapseBreaks (tagless : Tagless cs) : Tagless (collapseBreaks cs) := by
  induction cs with
  | nil => rwa [collapseBreaks_nil]
  | cons c cs ih =>
    rw [collapseBreaks_cons]
    unfold squeeze
    split
    · exact ih tagless.2
    · have first : cs.head? = some '>' → (Transform.collapseBreaks cs).head? = some '>' := by
        intro closing
        obtain ⟨rest, rfl⟩ := List.head?_eq_some_iff.mp closing
        rw [collapseBreaks_cons, squeeze_of_ne (by decide), List.head?_cons]
      have tagless : Tagless ([c] ++ cs) := tagless
      exact tagless.append_of_sublist (collapseBreaks_sublist cs) (fun closing => .inl (first closing))
        (ih tagless.2)

/-- The line in front is cleared or kept; the break behind it keeps the others apart from it. -/
theorem Tagless.clearLines_cons (p : List Char → Bool) {line : List Char} {lines : List (List Char)}
    (tagless : Tagless (unlines (line :: lines))) :
    Tagless (unlines ((line :: lines).map fun line => if p line then [] else line)) := by
  have cleared : ∀ line : List Char, (if p line then [] else line).Sublist line := by
    intro line
    split
    · exact List.nil_sublist line
    · exact .refl _
  induction lines generalizing line with
  | nil =>
    rw [List.map_cons, List.map_nil]
    split
    · trivial
    · exact tagless
  | cons next lines ih =>
    rw [unlines_cons (List.cons_ne_nil next lines)] at tagless
    have rest := ih tagless.right.2
    rw [List.map_cons, unlines_cons (by simp)]
    split
    · exact ⟨nofun, rest⟩
    · exact tagless.append_of_sublist ((unlines_map_sublist cleared _).cons_cons '\n') nofun
        ⟨nofun, rest⟩

theorem Tagless.clearLines (p : List Char → Bool) (tagless : Tagless cs) :
    Tagless (clearLines p cs) := by
  obtain ⟨line, others, split, -⟩ := exists_lines_eq cs
  rw [← unlines_lines cs, split] at tagless
  rw [Transform.clearLines, split]
  exact tagless.clearLines_cons p

theorem Tagless.trim (tagless : Tagless cs) : Tagless (trim cs) := by
  have started : Tagless (trimStart cs) := by
    obtain ⟨front, joined⟩ : trimStart cs <:+ cs := List.dropWhile_suffix isBlank
    rw [← joined] at tagless
    exact tagless.right
  obtain ⟨rest, joined⟩ : trimEnd (trimStart cs) <+: trimStart cs := by
    rw [← List.reverse_suffix, trimEnd, dropEndWhile, List.reverse_reverse]
    exact List.dropWhile_suffix isBlank
  rw [← joined] at started
  exact started.left

end

/-- No tag is left in markdown that was reduced, and no comment with its closing mark. -/
theorem minifyMarkdown_tagless (stripHeadings stripQuotes : Bool) (cs : List Char) :
    ¬ HasTag (minifyMarkdown stripHeadings stripQuotes cs) ∧
      ¬ HasComment (minifyMarkdown stripHeadings stripQuotes cs) := by
  have tagless : Tagless (minifyMarkdown stripHeadings stripQuotes cs) := by
    have collapsed : Tagless (Transform.collapseBreaks (stripMarkup cs)) :=
      (tagless_tags _).collapseBreaks
    unfold minifyMarkdown
    apply Tagless.trim
    cases stripHeadings <;> cases stripQuotes
    · exact collapsed
    · exact collapsed.clearLines isQuote
    · exact collapsed.clearLines isHeading
    · exact (collapsed.clearLines isHeading).clearLines isQuote
  exact ⟨tagless.not_hasTag, tagless.not_hasComment⟩

example : minifyMarkdown false false "a <> b <<!-- c -->i>d</i> e < f".toList =
    "a <> b d e < f".toList := by
  decide +kernel

end PromptPack.Transform
