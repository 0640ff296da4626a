import PromptPack.Proofs.Prune.Deletion

/-! What removing a symbol leaves in place. A region ends where the next sibling starts, so another
declaration stays if its header starts a sibling and does not overlap with the header of the symbol.
Main statement: `strip_keeps_siblings`. -/

namespace PromptPack.Prune

open Text
open Text.Pattern (word oneOrMore sequence anyOf)

/-- A declaration at the start of a line, with lines that belong to it. -/
structure Declaration (family : LanguageFamily) (name front : List Char) (block : Block)
    (back : List Char) : Prop where
  lineStart : EndsLine front
  declares : block.DeclaresName family name front.getLast? back
  isName : IsName family name
  complete : ¬ BreaksName family block.head (block.body ++ back)
  belongs : ∀ inner more, block.body = inner ++ '\n' :: more →
    ∃ c others, more = c :: others ∧ isWord c = false ∧ c ≠ '@'

/-- A Go header of the name, which may run over lines, has a header of the other name at the start
of one of its lines. -/
def HoldsHeader (name other cs : List Char) : Prop :=
  ∃ front inner more back taken rest, cs = front ++ (inner ++ '\n' :: more ++ back) ∧
    EndsLine front ∧ ReadsHeader .go name front.getLast? (inner ++ '\n' :: more) back ∧
    more ++ back = taken ++ rest ∧ ReadsHeader .go other (some '\n') taken rest

def HeadersApart (name other cs : List Char) : Prop :=
  ¬ HoldsHeader name other cs ∧ ¬ HoldsHeader other name cs

section

variable {family : LanguageFamily} {name other front back : List Char} {block : Block}
  {before : Option Char} {header : Pattern} {taken rest left : List Char}

theorem reads_word_anyOf {ps : List Pattern} {s : String} (member : word s ∈ ps)
    (more : List Char) :
    ∃ taken rest, s.toList ++ more = taken ++ rest ∧ (anyOf ps).Reads before taken rest :=
  ⟨s.toList, more, rfl, Pattern.reads_anyOf member rfl⟩

theorem reads_keyword_anyOf {ps : List Pattern} {s : String} {space more : List Char}
    (member : Pattern.seq (word s) (.one isBlank) ∈ ps)
    (blank : ∃ c cs, space = c :: cs ∧ ∀ d ∈ c :: cs, isBlank d = true) :
    ∃ taken rest, s.toList ++ (space ++ more) = taken ++ rest ∧
      (anyOf ps).Reads before taken rest := by
  obtain ⟨c, cs, rfl, all⟩ := blank
  refine ⟨s.toList ++ [c], cs ++ more, by simp, Pattern.reads_anyOf member ?_⟩
  exact ⟨s.toList, [c], rfl, rfl, c, all c List.mem_cons_self, rfl⟩

/-- Every header starts a sibling, but for that of an abstract class. -/
theorem startsSibling_of_header (h : ReadsHeader family name before taken rest)
    (concrete : ¬ "abstract".toList <+: taken) :
    startsSibling (boundary family) (taken ++ rest) = true := by
  have found : (boundary family).matchesAt ⟨some '\n', taken ++ rest⟩ = true := by
    rw [Pattern.matchesAt_iff]
    obtain ⟨header, member, reads⟩ := h
    cases family with
    | typescript =>
      simp only [headers, List.mem_cons, List.not_mem_nil, or_false] at member
      rcases member with rfl | rfl | rfl
      · obtain ⟨_, _, rfl, async, _, more, rfl, rfl, _⟩ := reads
        rcases async with ⟨_, space, rfl, rfl, blank⟩ | rfl
        · refine ⟨"async".toList ++ (space ++ "function".toList), more ++ rest, by simp, ?_⟩
          exact Pattern.reads_anyOf (p := sequence [word "async", blanks, word "function"])
            (by simp) ⟨_, _, rfl, rfl, _, _, rfl, blank, rfl⟩
        · rw [List.nil_append, List.append_assoc]
          exact reads_word_anyOf (by simp) _
      · obtain ⟨_, more, rfl, kind, _⟩ := reads
        rw [List.append_assoc]
        rcases kind with rfl | rfl | rfl
        · exact reads_word_anyOf (by simp) _
        · exact reads_word_anyOf (by simp) _
        · exact reads_word_anyOf (by simp) _
      · obtain ⟨_, _, rfl, abstracts, _, more, rfl, ⟨_, space, rfl, rfl, _⟩, _⟩ := reads
        rcases abstracts with ⟨_, _, rfl, rfl, _⟩ | rfl
        · exact absurd (by simp) concrete
        · rw [List.nil_append, List.append_assoc, List.append_assoc]
          exact reads_word_anyOf (by simp) _
    | python =>
      simp only [headers, List.mem_cons, List.not_mem_nil, or_false] at member
      rcases member with rfl | rfl
      · obtain ⟨_, _, rfl, async, _, more, rfl, ⟨_, space, rfl, rfl, blank⟩, _⟩ := reads
        rcases async with ⟨_, gap, rfl, rfl, between⟩ | rfl
        · obtain ⟨c, cs, rfl, all⟩ := reads_blanks_iff.mp blank
          refine ⟨"async".toList ++ (gap ++ ("def".toList ++ [c])), cs ++ more ++ rest, by simp, ?_⟩
          exact Pattern.reads_anyOf
            (p := sequence [word "async", blanks, word "def", .one isBlank]) (by simp)
            ⟨_, _, rfl, rfl, _, _, rfl, between, _, _, rfl, rfl, c, all c List.mem_cons_self, rfl⟩
        · rw [List.nil_append, List.append_assoc, List.append_assoc]
          exact reads_keyword_anyOf (by simp) (reads_blanks_iff.mp blank)
      · obtain ⟨_, more, rfl, ⟨_, space, rfl, rfl, blank⟩, _⟩ := reads
        rw [List.append_assoc, List.append_assoc]
        exact reads_keyword_anyOf (by simp) (reads_blanks_iff.mp blank)
    | rust =>
      obtain rfl := List.mem_singleton.mp member
      obtain ⟨_, _, rfl, async, _, more, rfl, ⟨_, space, rfl, rfl, _⟩, _⟩ := reads
      rcases async with ⟨_, gap, rfl, rfl, between⟩ | rfl
      · refine ⟨"async".toList ++ (gap ++ "fn".toList), space ++ more ++ rest, by simp, ?_⟩
        exact Pattern.reads_anyOf (p := sequence [word "async", blanks, word "fn"])
          (by simp) ⟨_, _, rfl, rfl, _, _, rfl, between, rfl⟩
      · rw [List.nil_append, List.append_assoc, List.append_assoc]
        exact reads_word_anyOf (by simp) _
    | go =>
      obtain rfl := List.mem_singleton.mp member
      obtain ⟨_, more, rfl, ⟨_, space, rfl, rfl, blank⟩, _⟩ := reads
      rw [List.append_assoc, List.append_assoc]
      exact reads_keyword_anyOf (by simp) (reads_blanks_iff.mp blank)
    | unsupported => cases member
  rw [startsSibling, found, Bool.or_true]

theorem EndsLine.getLast? (h : EndsLine front) (nonempty : front ≠ []) :
    front.getLast? = some '\n' := by
  obtain ⟨line, rfl⟩ := h.resolve_left nonempty
  exact List.getLast?_concat

theorem EndsLine.of_append (h : EndsLine (front ++ back)) : EndsLine back := by
  rcases List.eq_nil_or_concat back with rfl | ⟨line, c, rfl⟩
  · exact .inl rfl
  · rw [List.concat_eq_append] at h ⊢
    have last := h.getLast? (by simp)
    rw [List.getLast?_append, List.getLast?_concat, Option.some_or] at last
    obtain rfl := Option.some.inj last
    exact .inr ⟨line, rfl⟩

theorem EndsLine.cons_of_append {line more cs : List Char} (h : EndsLine front)
    (nonempty : front ≠ []) (outside : '\n' ∉ line)
    (same : front ++ cs = line ++ '\n' :: more) :
    ∃ lines, front = line ++ '\n' :: lines ∧ EndsLine lines ∧ lines ++ cs = more := by
  obtain ⟨start, rfl⟩ := h.resolve_left nonempty
  rcases append_eq_append_cons same with ⟨lines, isFront, rfl⟩ | ⟨inside, rfl, _⟩
  · have split : line ++ '\n' :: lines = line ++ ['\n'] ++ lines := by simp
    rw [isFront, split] at h
    exact ⟨lines, isFront, h.of_append, rfl⟩
  · exact absurd (by simp) outside

theorem Decorators.of_lineBreak {inner more : List Char}
    (decorated : Decorators (inner ++ '\n' :: more)) : Decorators more := by
  generalize split : inner ++ '\n' :: more = decorators at decorated
  induction decorated generalizing inner with
  | nil => simp at split
  | @line text others outside decorated ih =>
    have noBreak : '\n' ∉ '@' :: text := fun member =>
      outside ((List.mem_cons.mp member).resolve_left (by decide))
    obtain ⟨start, behind⟩ := behind_of_append noBreak split.symm
    rcases cons_eq_append_cons behind with ⟨_, rfl⟩ | ⟨start, same⟩
    · exact decorated
    · exact ih same.symm

theorem Decorators.eq_nil {decorators cs : List Char} (decorated : Decorators decorators)
    (noAt : (decorators ++ cs).head? ≠ some '@') : decorators = [] := by
  cases decorated with
  | nil => rfl
  | line _ _ => exact absurd rfl noAt

theorem dropDecorators_append {decorators cs : List Char} (decorated : Decorators decorators)
    (noAt : cs.head? ≠ some '@') : dropDecorators (decorators ++ cs) = cs := by
  induction decorated with
  | nil =>
    rw [List.nil_append]
    unfold dropDecorators
    split
    · exact absurd rfl noAt
    · rfl
  | @line text more outside _ ih =>
    have split : '@' :: text ++ '\n' :: more ++ cs = '@' :: text ++ '\n' :: (more ++ cs) := by simp
    rw [split, dropDecorators_lineBreak outside, ih]

theorem Decorators.split_of_append {gone decorators cs : List Char} (removed : Decorators gone)
    (decorated : Decorators decorators) (lineStart : EndsLine front) (noAt : cs.head? ≠ some '@')
    (restNoAt : rest.head? ≠ some '@') (same : front ++ (decorators ++ cs) = gone ++ rest) :
    (∃ lines, front = gone ++ lines ∧ lines ++ (decorators ++ cs) = rest) ∨ cs = rest := by
  induction removed generalizing front with
  | nil => exact .inl ⟨front, rfl, same⟩
  | @line text more outside removed ih =>
    by_cases empty : front = []
    · subst empty
      rw [List.nil_append] at same
      rw [← dropDecorators_append decorated noAt, same,
        dropDecorators_append (.line outside removed) restNoAt]
      exact .inr rfl
    · rw [List.append_assoc] at same
      have noBreak : '\n' ∉ '@' :: text := fun member =>
        outside ((List.mem_cons.mp member).resolve_left (by decide))
      obtain ⟨lines, rfl, later, behind⟩ := lineStart.cons_of_append empty noBreak same
      rcases ih later behind with ⟨left, rfl, split⟩ | here
      · exact .inl ⟨left, by simp, split⟩
      · exact .inr here

theorem Block.DeclaresName.head?_ne_at (h : block.DeclaresName family name before rest) :
    (block.head ++ (block.body ++ rest)).head? ≠ some '@' := by
  obtain ⟨c, more, isHead, isWord⟩ := h.header.exists_cons
  rw [isHead]
  intro same
  obtain rfl := Option.some.inj same
  exact absurd isWord (by decide)

theorem Declaration.not_leadsTo (declared : Declaration family other front block back)
    (isName : IsName family name) (apart : Apart name other) {behind : List Char} :
    ¬ LeadsTo family name (block.head ++ (block.body ++ back)) behind := by
  intro leads
  obtain ⟨rest, otherLeads, stop⟩ := declared.declares.header.leadsTo declared.isName
  exact not_clash isName declared.isName apart leads otherLeads (stop declared.complete)

theorem Declaration.not_same_place (declared : Declaration family other front block back)
    (isName : IsName family name) (apart : Apart name other)
    (reads : ReadsHeader family name before taken rest) :
    taken ++ rest ≠ block.head ++ (block.body ++ back) := by
  obtain ⟨behind, leads, _⟩ := reads.leadsTo isName
  intro same
  exact declared.not_leadsTo isName apart (same ▸ leads)

theorem Declaration.not_inside (declared : Declaration family other front block back)
    (isName : IsName family name) (apart : Apart name other) {start inner more : List Char}
    (reads : ReadsHeader family name start.getLast? (inner ++ '\n' :: more) rest)
    (lineStart : EndsLine start) (behind : front.getLast? = some '\n')
    (wellFormed : family = .go →
      HeadersApart name other (start ++ (inner ++ '\n' :: more ++ rest))) :
    more ++ rest ≠ block.text ++ back := by
  rw [Block.text_append]
  intro same
  have undecorated : (more ++ rest).head? ≠ some '@' → block.decorators = [] :=
    fun noAt => declared.declares.decorated.eq_nil (same ▸ noAt)
  by_cases isGo : family = .go
  · subst isGo
    have header := declared.declares.header
    rw [behind] at header
    rw [declared.declares.onlyPython.resolve_right (by decide)] at same
    exact (wellFormed rfl).1 ⟨start, inner, more, rest, block.head, block.body ++ back, rfl,
      lineStart, reads, same, header⟩
  · rcases reads.leadsTo_of_lineBreak isGo isName with
      ⟨behind, leads, _⟩ | ⟨c, others, rfl, noWord, noAt⟩
    · rw [undecorated (leads.head?_ne_at isName)] at same
      exact declared.not_leadsTo isName apart (same ▸ leads)
    · obtain ⟨d, ds, isHead, isWord⟩ := declared.declares.header.exists_cons
      rw [undecorated fun isAt => noAt (Option.some.inj isAt), isHead] at same
      obtain ⟨rfl, _⟩ := List.cons.inj same
      exact Bool.false_ne_true (noWord.symm.trans isWord)

theorem startsSibling_of_decorators {decorators cs : List Char}
    (decorated : Decorators decorators) (onlyPython : decorators = [] ∨ family = .python)
    (sibling : startsSibling (boundary family) cs = true) :
    startsSibling (boundary family) (decorators ++ cs) = true := by
  cases decorated with
  | nil => exact sibling
  | @line text more _ _ =>
    obtain rfl := onlyPython.resolve_left (by simp)
    have found : (boundary .python).matchesAt ⟨some '\n', '@' :: text ++ '\n' :: more ++ cs⟩ = true :=
      Pattern.matchesAt_iff.mpr (reads_word_anyOf (s := "@") (by simp) _)
    rw [startsSibling, found, Bool.or_true]

/-- A removal that starts before a declaration ends before the line of the declaration. -/
theorem Declaration.spared {start lines : List Char}
    (declared : Declaration family other (start ++ lines) block back)
    (concrete : ¬ "abstract".toList <+: block.head) (isName : IsName family name)
    (apart : Apart name other) (member : header ∈ headers family name) (lineStart : EndsLine start)
    (wellFormed : family = .go → HeadersApart name other (start ++ (lines ++ (block.text ++ back))))
    (found : afterDeclaration? family header start.getLast? (lines ++ (block.text ++ back)) =
      some left) :
    ∃ front, left = front ++ '\n' :: (block.text ++ back) := by
  obtain ⟨region, split, declares, _, first⟩ := block_of_afterDeclaration? member found
  have sibling : startsSibling (boundary family) (block.text ++ back) = true := by
    rw [Block.text_append]
    exact startsSibling_of_decorators declared.declares.decorated declared.declares.onlyPython
      (startsSibling_of_header declared.declares.header concrete)
  rw [Block.text_append block, Block.text_append region] at split
  rcases declares.decorated.split_of_append declared.declares.decorated declared.lineStart.of_append
    declared.declares.head?_ne_at declares.head?_ne_at split with ⟨lines, rfl, texts⟩ | here
  · rw [← Block.text_append block] at texts
    -- The two headers cannot overlap: each starts a line, and neither holds the start of the other.
    have headersApart : ∀ more, region.head = lines ++ more →
        more ++ (region.body ++ left) ≠ block.text ++ back := by
      intro more isHead same
      have header := declares.header
      rw [isHead] at header
      rcases declared.lineStart.of_append.of_append with rfl | ⟨line, rfl⟩
      · have noAt := declares.head?_ne_at
        rw [isHead, List.nil_append, same, Block.text_append] at noAt
        rw [Block.text_append, declared.declares.decorated.eq_nil noAt] at same
        exact declared.not_same_place isName apart header same
      · rw [List.append_assoc, List.singleton_append] at header
        refine declared.not_inside isName apart header lineStart (by simp) ?_ same
        rintro rfl
        have undecorated := declares.onlyPython.resolve_right (by decide)
        simpa [← same, undecorated] using wellFormed rfl
    rcases List.append_eq_append_iff.mp texts with ⟨more, isHead, here⟩ | ⟨between, rfl, behind⟩
    · exact absurd here.symm (headersApart more isHead)
    · rcases declared.lineStart.of_append.of_append.of_append with rfl | ⟨line, rfl⟩
      · exact absurd behind (headersApart [] (by simp))
      · rw [List.append_assoc, List.singleton_append] at behind
        rcases append_eq_append_cons behind with ⟨inside, isBody, same⟩ | ⟨front, _, rfl⟩
        · have none := first line inside isBody
          rw [← same] at none
          exact absurd sibling (ne_true_of_eq_false none)
        · exact ⟨front, rfl⟩
  · exact absurd here.symm (declared.not_same_place isName apart declares.header)

theorem first_of_afterDeclaration? {c : Char} {cs : List Char}
    (member : header ∈ headers family name)
    (found : afterDeclaration? family header before (c :: cs) = some left) :
    isWord c = true ∨ c = '@' := by
  obtain ⟨region, split, declares, _⟩ := block_of_afterDeclaration? member found
  rw [Block.text_append] at split
  obtain ⟨d, ds, isHead, isWord⟩ := declares.header.exists_cons
  by_cases isAt : c = '@'
  · exact .inr isAt
  · have noAt : (c :: cs).head? ≠ some '@' := fun same => isAt (Option.some.inj same)
    rw [split] at noAt
    rw [declares.decorated.eq_nil noAt, isHead] at split
    obtain ⟨rfl, _⟩ := List.cons.inj split
    exact .inl isWord

theorem Declaration.quiet_header (declared : Declaration family other front block back)
    (isName : IsName family name) (apart : Apart name other)
    (member : header ∈ headers family name)
    (wellFormed : family = .go → HeadersApart name other (front ++ (block.text ++ back)))
    {inner more : List Char} (isHead : block.head = inner ++ '\n' :: more) :
    afterDeclaration? family header (some '\n') (more ++ (block.body ++ back)) = none := by
  refine Option.eq_none_iff_forall_ne_some.mpr fun left found => ?_
  obtain ⟨region, split, declares, _⟩ := block_of_afterDeclaration? member found
  rw [Block.text_append] at split
  have otherHeader := declared.declares.header
  rw [isHead] at otherHeader
  by_cases isGo : family = .go
  · subst isGo
    have undecorated := declared.declares.onlyPython.resolve_right (by decide)
    have text : block.text ++ back = inner ++ '\n' :: more ++ (block.body ++ back) := by
      rw [Block.text_append, undecorated, isHead, List.nil_append]
    rw [declares.onlyPython.resolve_right (by decide)] at split
    exact (wellFormed rfl).2 ⟨front, inner, more, _, region.head, _, congrArg _ text,
      declared.lineStart, otherHeader, split, declares.header⟩
  · rcases otherHeader.leadsTo_of_lineBreak isGo declared.isName with
      ⟨rest, otherLeads, stop⟩ | ⟨c, others, rfl, noWord, noAt⟩
    · have noAt := otherLeads.head?_ne_at declared.isName
      rw [split] at noAt
      rw [declares.decorated.eq_nil noAt, List.nil_append] at split
      obtain ⟨behind, leads, _⟩ := declares.header.leadsTo isName
      exact not_clash isName declared.isName apart (split ▸ leads) otherLeads
        (stop (isHead ▸ declared.complete))
    · rcases first_of_afterDeclaration? member found with isWord | isAt
      · exact Bool.false_ne_true (noWord.symm.trans isWord)
      · exact noAt isAt

theorem Declaration.quiet (declared : Declaration family other front block back)
    (isName : IsName family name) (apart : Apart name other)
    (member : header ∈ headers family name)
    (wellFormed : family = .go → HeadersApart name other (front ++ (block.text ++ back)))
    {inner more : List Char} (split : block.text = inner ++ '\n' :: more) :
    afterDeclaration? family header (some '\n') (more ++ back) = none := by
  rcases append_eq_append_cons split with ⟨inside, isDecorators, rfl⟩ | ⟨_, _, here⟩
  · -- Between the decorators nothing but the rest of them stands before the header.
    refine Option.eq_none_iff_forall_ne_some.mpr fun left found => ?_
    obtain ⟨region, split, declares, _⟩ := block_of_afterDeclaration? member found
    have decorated := declared.declares.decorated
    rw [isDecorators] at decorated
    rw [Block.text_append, List.append_assoc, List.append_assoc] at split
    refine declared.not_same_place isName apart declares.header ?_
    rw [← dropDecorators_append decorated.of_lineBreak declared.declares.head?_ne_at, split,
      dropDecorators_append declares.decorated declares.head?_ne_at]
  · rcases append_eq_append_cons here with ⟨more, isHead, rfl⟩ | ⟨start, _, isBody⟩
    · rw [List.append_assoc]
      exact declared.quiet_header isName apart member wellFormed isHead
    · obtain ⟨c, others, isMore, noWord, noAt⟩ := declared.belongs start more isBody
      rw [isMore]
      refine Option.eq_none_iff_forall_ne_some.mpr fun left found => ?_
      rcases first_of_afterDeclaration? member found with isWord | isAt
      · exact Bool.false_ne_true (noWord.symm.trans isWord)
      · exact noAt isAt

theorem suffix_of_afterDeclaration? {cs : List Char} (member : header ∈ headers family name)
    (found : afterDeclaration? family header before cs = some left) : left <:+ cs := by
  obtain ⟨region, rfl, _⟩ := block_of_afterDeclaration? member found
  exact List.suffix_append _ _

theorem head?_scan_removalStep (cs : List Char) :
    (scan (removalStep family header) cs).head? = cs.head? := by
  cases cs with
  | nil => rw [scan_nil]
  | cons c cs =>
    rcases scan_removalStep_cons family header c cs with ⟨_, same⟩ | ⟨rfl, _, _, same⟩
    · rw [same, List.head?_cons, List.head?_cons]
    · rw [same, List.head?_cons, List.head?_cons]

theorem scan_spared {kept : List Char} (member : header ∈ headers family name)
    (quiet : ∀ inner more, kept = inner ++ '\n' :: more →
      afterDeclaration? family header (some '\n') (more ++ back) = none) (lines : List Char)
    (spared : ∀ start more left, lines ++ ['\n'] = start ++ '\n' :: more →
      afterDeclaration? family header (some '\n') (more ++ (kept ++ back)) = some left →
      ∃ front, left = front ++ '\n' :: (kept ++ back)) :
    ∃ front, front.Sublist lines ∧
      scan (removalStep family header) (lines ++ '\n' :: (kept ++ back)) =
        front ++ '\n' :: (kept ++ scan (removalStep family header) back) := by
  -- A removal leaves fewer lines to go, so the induction is on their length.
  induction h : lines.length using Nat.strongRecOn generalizing lines with
  | ind n ih =>
    cases lines with
    | nil =>
      rcases scan_removalStep_cons family header '\n' (kept ++ back) with
        ⟨_, same⟩ | ⟨_, left, found, _⟩
      · refine ⟨[], .slnil, ?_⟩
        rw [List.nil_append, same, scan_removalStep_append quiet, List.nil_append]
      · obtain ⟨front, rfl⟩ := spared [] [] left rfl found
        have shorter := length_afterDeclaration? found
        simp only [List.length_append, List.length_cons] at shorter
        omega
    | cons c lines =>
      rw [List.length_cons] at h
      rcases scan_removalStep_cons family header c (lines ++ '\n' :: (kept ++ back)) with
        ⟨_, same⟩ | ⟨rfl, left, found, same⟩
      · obtain ⟨front, sub, later⟩ := ih lines.length (by omega) lines (fun start more left split =>
          spared (c :: start) more left (congrArg (c :: ·) split)) rfl
        refine ⟨c :: front, sub.cons_cons c, ?_⟩
        rw [List.cons_append, same, later, List.cons_append]
      · obtain ⟨front, rfl⟩ := spared [] (lines ++ ['\n']) left rfl (by simpa using found)
        obtain ⟨gone, split⟩ := suffix_of_afterDeclaration? member found
        rw [← List.append_assoc] at split
        obtain rfl := List.append_cancel_right split
        have shorter : front.length < n := by
          rw [List.length_append] at h
          omega
        obtain ⟨left, sub, later⟩ := ih front.length shorter front (fun start more left split =>
          spared ('\n' :: gone ++ start) more left (by simpa using split)) rfl
        refine ⟨'\n' :: left, (sub.trans (List.sublist_append_right gone front)).cons_cons _, ?_⟩
        rw [List.cons_append, same, later, List.cons_append]

theorem Declaration.of_neighbours {others rest : List Char}
    (declared : Declaration family other front block back) (lineStart : EndsLine others)
    (last : others.getLast? = front.getLast?) (next : rest.head? = back.head?) :
    Declaration family other others block rest := by
  have behind : (block.body ++ back).head? = (block.body ++ rest).head? := by
    rw [List.head?_append, List.head?_append, next]
  obtain ⟨decorated, onlyPython, header, member, reads⟩ := declared.declares
  refine ⟨lineStart, ⟨decorated, onlyPython, header, member, ?_⟩, declared.isName, ?_,
    declared.belongs⟩
  · rw [last]
    exact reads.of_head? behind
  · unfold BreaksName
    rw [← behind]
    exact declared.complete

/-- The declaration stands in the text, between what is left of the text before and behind it. -/
def Keeps (family : LanguageFamily) (name front : List Char) (block : Block) (back result : List Char) :
    Prop :=
  ∃ before after, result = before ++ (block.text ++ after) ∧ before.Sublist front ∧
    after.Sublist back ∧ Declaration family name before block after

theorem Declaration.removeDeclarations_keeps
    (declared : Declaration family other front block back)
    (concrete : ¬ "abstract".toList <+: block.head) (isName : IsName family name)
    (apart : Apart name other) (member : header ∈ headers family name)
    (wellFormed : family = .go → HeadersApart name other (front ++ (block.text ++ back))) :
    Keeps family other front block back
      (removeDeclarations family (front ++ (block.text ++ back)) header) := by
  have quiet : ∀ inner more, block.text = inner ++ '\n' :: more →
      afterDeclaration? family header (some '\n') (more ++ back) = none :=
    fun _ _ => declared.quiet isName apart member wellFormed
  have spared : ∀ start more left, front = start ++ '\n' :: more →
      afterDeclaration? family header (some '\n') (more ++ (block.text ++ back)) = some left →
      ∃ front, left = front ++ '\n' :: (block.text ++ back) := by
    rintro start more left rfl found
    have split : start ++ '\n' :: more = start ++ ['\n'] ++ more := by simp
    rw [split] at declared wellFormed
    refine declared.spared concrete isName apart member (.inr ⟨start, rfl⟩) ?_ ?_
    · simpa using wellFormed
    · rw [List.getLast?_concat]
      exact found
  have sublist : (scan (removalStep family header) back).Sublist back :=
    sublist_of_cuts (scan_cuts member [] back)
  have next : (scan (removalStep family header) back).head? = back.head? :=
    head?_scan_removalStep back
  -- Scanning starts at the first line, or behind a removal there.
  have pass : ∀ lines, (∃ gone, front = gone ++ (lines ++ ['\n'])) →
      ∃ before, before.Sublist lines ∧
        scan (removalStep family header) (lines ++ '\n' :: (block.text ++ back)) =
          before ++ ['\n'] ++ (block.text ++ scan (removalStep family header) back) := by
    rintro lines ⟨gone, rfl⟩
    obtain ⟨before, sub, same⟩ := scan_spared member quiet lines fun start more left split found =>
      spared (gone ++ start) more left (by rw [split, List.append_assoc]) found
    exact ⟨before, sub, by simpa only [List.append_assoc, List.singleton_append] using same⟩
  unfold removeDeclarations
  split
  · next left found =>
    have whole : Declaration family other ([] ++ front) block back := declared
    obtain ⟨lines, rfl⟩ :=
      whole.spared concrete isName apart member (.inl rfl) wellFormed found
    obtain ⟨gone, split⟩ := suffix_of_afterDeclaration? member found
    have lineBreak : lines ++ '\n' :: (block.text ++ back) =
        lines ++ ['\n'] ++ (block.text ++ back) := by simp
    rw [lineBreak, ← List.append_assoc] at split
    obtain rfl := List.append_cancel_right split
    obtain ⟨before, sub, same⟩ := pass lines ⟨gone, rfl⟩
    refine ⟨before ++ ['\n'], _, same, ?_, sublist,
      declared.of_neighbours (.inr ⟨before, rfl⟩) (by simp) next⟩
    exact (sub.append (.refl _)).trans (List.sublist_append_right _ _)
  · rcases declared.lineStart with rfl | ⟨lines, rfl⟩
    · exact ⟨[], _, scan_removalStep_append quiet, .refl _, sublist, declared.of_neighbours (.inl rfl) rfl next⟩
    · obtain ⟨before, sub, same⟩ := pass lines ⟨[], rfl⟩
      refine ⟨before ++ ['\n'], _, ?_, sub.append (.refl _), sublist,
        declared.of_neighbours (.inr ⟨before, rfl⟩) (by simp) next⟩
      rw [← same, List.append_assoc, List.singleton_append]

theorem Declaration.removeAll_keeps (declared : Declaration family other front block back)
    (concrete : ¬ "abstract".toList <+: block.head) (isName : IsName family name)
    (apart : Apart name other)
    (wellFormed : family = .go → HeadersApart name other (front ++ (block.text ++ back))) :
    Keeps family other front block back ((headers family name).foldl
      (removeDeclarations family) (front ++ (block.text ++ back))) := by
  by_cases isGo : family = .go
  · -- Go has one header, so its pass meets the text that is known to be well-formed.
    subst isGo
    exact declared.removeDeclarations_keeps concrete isName apart List.mem_cons_self wellFormed
  · have passes : ∀ header ∈ headers family name, ∀ front back,
        Declaration family other front block back → Keeps family other front block back
          (removeDeclarations family (front ++ (block.text ++ back)) header) :=
      fun _ member _ _ declared => declared.removeDeclarations_keeps concrete isName apart member
        fun go => absurd go isGo
    clear wellFormed
    generalize headers family name = patterns at passes
    induction patterns generalizing front back with
    | nil => exact ⟨front, back, rfl, .refl _, .refl _, declared⟩
    | cons header patterns ih =>
      obtain ⟨first, others⟩ := List.forall_mem_cons.mp passes
      obtain ⟨before, after, split, subFront, subBack, kept⟩ := first front back declared
      obtain ⟨start, rest, result, subBefore, subAfter, keptStill⟩ := ih kept others
      rw [List.foldl_cons, split]
      exact ⟨start, rest, result, subBefore.trans subFront, subAfter.trans subBack, keptStill⟩

end

/-- Removing a symbol keeps every declaration of a name apart from it, whole and in its place. Only
an abstract class may go with what stands before it, since its header starts no sibling. -/
theorem strip_keeps_siblings (content symbol : String) (family : LanguageFamily)
    (other front : List Char) (block : Block) (back : List Char)
    (isName : IsName family symbol.toList) (apart : Apart symbol.toList other)
    (split : content.toList = front ++ (block.text ++ back))
    (declared : Declaration family other front block back)
    (concrete : ¬ "abstract".toList <+: block.head)
    (wellFormed : family = .go → HeadersApart symbol.toList other content.toList) :
    Keeps family other front block back
      (stripUnreachable content [symbol] family).value.toList := by
  have same : Keeps family other front block back content.toList :=
    ⟨front, back, split, .refl _, .refl _, declared⟩
  rw [value_stripUnreachable]
  split
  · exact same
  · rw [String.toList_ofList, stripSymbols, List.foldl_cons, List.foldl_nil]
    unfold stripSymbol
    dsimp only
    split
    · exact same
    · rw [split] at wellFormed ⊢
      exact declared.removeAll_keeps concrete isName apart wellFormed

theorem strip_keeps_siblings_decorated :
    let block : Block := ⟨'@' :: "cached".toList ++ ['\n'], "class Shape".toList, ":\n    pass".toList⟩
    let content := "def s():\n    pass\n\n@cached\nclass Shape:\n    pass\n"
    content.toList = "def s():\n    pass\n\n".toList ++ (block.text ++ ['\n']) ∧
      Declaration .python "Shape".toList "def s():\n    pass\n\n".toList block ['\n'] ∧
      Keeps .python "Shape".toList "def s():\n    pass\n\n".toList block ['\n']
        (stripUnreachable content ["s"] .python).value.toList := by
  intro block content
  have split : content.toList = "def s():\n    pass\n\n".toList ++ (block.text ++ ['\n']) := by
    simp [content, block, Block.text]
  have isName : IsName .python "s".toList :=
    ⟨by simp, by simp [isNameChar, isWord], by simp [keywords]⟩
  have apart : Apart "s".toList "Shape".toList := by
    intro more same
    simp at same
  have header : ReadsHeader .python "Shape".toList (some '\n') "class Shape".toList
      (":\n    pass".toList ++ ['\n']) := by
    refine ⟨_, List.mem_cons_of_mem _ List.mem_cons_self, "class ".toList, "Shape".toList, ?_, ?_, ?_⟩
    · decide +kernel
    · exact ⟨"class".toList, [' '], by decide +kernel, rfl, [' '], [], rfl, ⟨' ', by decide, rfl⟩,
        fun c member => absurd member List.not_mem_nil⟩
    · exact ⟨"Shape".toList, [], by simp, rfl, rfl, by decide +kernel⟩
  have belongs : ∀ inner more, ":\n    pass".toList = inner ++ '\n' :: more →
      ∃ c others, more = c :: others ∧ isWord c = false ∧ c ≠ '@' := by
    have chars : ":\n    pass".toList = ':' :: '\n' :: ' ' :: "   pass".toList := by simp
    intro inner more same
    rw [chars] at same
    rcases List.cons_eq_append_iff.mp same with ⟨_, here⟩ | ⟨inner, rfl, here⟩
    · exact absurd (List.cons.inj here).1 (by decide)
    · rcases List.cons_eq_append_iff.mp here with ⟨rfl, behind⟩ | ⟨inner, rfl, behind⟩
      · obtain ⟨_, rfl⟩ := List.cons.inj behind
        exact ⟨' ', "   pass".toList, rfl, by decide, by decide⟩
      · have member : '\n' ∈ ' ' :: "   pass".toList :=
          behind ▸ List.mem_append_right inner List.mem_cons_self
        exact absurd member (by simp)
  have declared : Declaration .python "Shape".toList "def s():\n    pass\n\n".toList block ['\n'] := by
    refine ⟨.inr ⟨"def s():\n    pass\n".toList, by simp⟩, ⟨.line (by simp) .nil,
      .inr rfl, ?_⟩, ⟨by simp, by simp [isNameChar, isWord], by simp [keywords]⟩, ?_, belongs⟩
    · exact header
    · exact fun breaks => absurd breaks.2 (by decide +kernel)
  exact ⟨split, declared, strip_keeps_siblings content "s" .python _ _ block _ isName apart split
    declared (by decide +kernel) (fun isGo => by cases isGo)⟩

/-- Siblings that the boundaries do not know go with the declaration in front of them, and a word
boundary inside a name is taken for its end. -/
theorem strip_drops_siblings :
    (stripUnreachable "function s() \x7b\n  return 1;\n\x7d\nabstract class Shape \x7b\x7d\n" ["s"]
      .typescript).value = "\n" ∧
    (stripUnreachable "fn s() \x7b\x7d\nconst N: u32 = 1;\n" ["s"] .rust).value = "\n" ∧
    (stripUnreachable "fn s() \x7b\x7d\nstatic N: u32 = 1;\n" ["s"] .rust).value = "\n" ∧
    (stripUnreachable "fn s() \x7b\x7d\ntype N = u32;\n" ["s"] .rust).value = "\n" ∧
    (stripUnreachable "fn s() \x7b\x7d\nunsafe fn n() \x7b\x7d\n" ["s"] .rust).value = "\n" ∧
    (stripUnreachable "class a$ \x7b\x7d\n" ["a"] .typescript).value = "\n" := by
  decide +kernel

end PromptPack.Prune
