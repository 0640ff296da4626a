import PromptPack.Proofs.Prune.Deletion
import PromptPack.Proofs.Text.Lines

/-! Removals line by line. A pass over the lines of a text keeps a line, or starts a removal there,
which leaves an empty line behind and goes on at a sibling. Main statement:
`pass_removeDeclarations`. -/

namespace PromptPack.Prune

open Text

/-- A pattern can be read from the start of this line on, if the right lines follow. -/
def Begins (p : Pattern) (line : List Char) : Prop :=
  ∃ below, p.matchesAt ⟨some '\n', line ++ newLines below⟩ = true

def Declaring (family : LanguageFamily) (name line : List Char) : Prop :=
  ∃ header ∈ headers family name, Begins header line

/-- A line that goes with the header below it. -/
def IsSign (family : LanguageFamily) (line : List Char) : Prop :=
  family = .python ∧ line.head? = some '@'

instance (family : LanguageFamily) (line : List Char) : Decidable (IsSign family line) :=
  inferInstanceAs (Decidable (_ ∧ _))

/-- A pass over lines with one header: a line stays, or a removal starts there and leaves an empty
line behind. -/
inductive Pass (family : LanguageFamily) (header : Pattern) :
    List (List Char) → List (List Char) → Prop
  | done : Pass family header [] []
  | keep {line : List Char} {below left : List (List Char)} :
      afterDeclaration? family header (some '\n') (line ++ newLines below) = none →
      Pass family header below left → Pass family header (line :: below) (line :: left)
  | cut {before : Option Char} {line : List Char} {below rest left : List (List Char)} :
      before.all (· == '\n') = true →
      afterDeclaration? family header before (line ++ newLines below) = some (newLines rest) →
      (∀ line ∈ rest, '\n' ∉ line) →
      Pass family header rest left → Pass family header (line :: below) ([] :: left)

section

variable {family : LanguageFamily} {name cs line : List Char} {below : List (List Char)}
  {header : Pattern}

theorem exists_newLines {rest : List Char} (h : rest = [] ∨ ∃ more, rest = '\n' :: more) :
    ∃ below, rest = newLines below ∧ ∀ line ∈ below, '\n' ∉ line := by
  rcases h with rfl | ⟨more, rfl⟩
  · exact ⟨[], rfl, fun _ member => absurd member List.not_mem_nil⟩
  · obtain ⟨part, parts, isLines, split⟩ := exists_lines_eq more
    refine ⟨part :: parts, by rw [newLines_cons, split], ?_⟩
    rw [← isLines]
    exact notMem_of_mem_lines more

theorem scan_removalStep_inline {line : List Char} (inline : '\n' ∉ line) (cs : List Char) :
    scan (removalStep family header) (line ++ cs) =
      line ++ scan (removalStep family header) cs := by
  refine scan_removalStep_append fun front rest split => ?_
  exact absurd (split ▸ List.mem_append_right front List.mem_cons_self) inline

theorem Decorators.exists_lines {decorators : List Char} (decorated : Decorators decorators)
    (inline : ∀ part ∈ line :: below, '\n' ∉ part)
    (split : line ++ newLines below = decorators ++ cs) :
    ∃ run head behind, line :: below = run ++ head :: behind ∧ cs = head ++ newLines behind ∧
      (decorators = [] → run = []) ∧ ∀ part ∈ run, part.head? = some '@' := by
  induction decorated generalizing line below with
  | nil =>
    exact ⟨[], line, below, rfl, split.symm, fun _ => rfl,
      fun _ member => absurd member List.not_mem_nil⟩
  | @line text more outside decorated ih =>
    have noBreak : '\n' ∉ '@' :: text := fun member =>
      outside ((List.mem_cons.mp member).resolve_left (by decide))
    obtain ⟨next, behind, isLines, isMore⟩ := exists_lines_eq (more ++ cs)
    have inlineText : ∀ part ∈ ('@' :: text) :: next :: behind, '\n' ∉ part :=
      List.forall_mem_cons.mpr ⟨noBreak, isLines ▸ notMem_of_mem_lines (more ++ cs)⟩
    have same : line ++ newLines below = ('@' :: text) ++ newLines (next :: behind) := by
      rw [split, newLines_cons, ← isMore, List.append_assoc]
      rfl
    have isSplit := cons_eq_of_inline inline inlineText same
    rw [isSplit] at inline ⊢
    obtain ⟨run, head, rest, isRest, text, _, signs⟩ :=
      ih (List.forall_mem_cons.mp inline).2 isMore.symm
    refine ⟨('@' :: _) :: run, head, rest, by rw [isRest, List.cons_append], text, ?_,
      List.forall_mem_cons.mpr ⟨rfl, signs⟩⟩
    intro empty
    cases empty

theorem exists_headerStart (family : LanguageFamily)
    (inline : ∀ part ∈ line :: below, '\n' ∉ part) :
    ∃ run head behind, line :: below = run ++ head :: behind ∧
      headerStart family (line ++ newLines below) = head ++ newLines behind ∧
      ∀ part ∈ run, IsSign family part := by
  obtain ⟨decorators, split, decorated, onlyPython⟩ :=
    decorators_of_headerStart family (line ++ newLines below)
  obtain ⟨run, head, behind, isLines, text, undecorated, signs⟩ :=
    decorated.exists_lines inline split
  refine ⟨run, head, behind, isLines, text, fun part member => ⟨?_, signs part member⟩⟩
  refine onlyPython.resolve_left fun empty => ?_
  rw [undecorated empty] at member
  cases member

theorem Declaring.exists_cons (declaring : Declaring family name line) :
    ∃ c more, line = c :: more ∧ isWord c = true := by
  obtain ⟨header, member, below, found⟩ := declaring
  obtain ⟨taken, rest, split, reads⟩ := Pattern.matchesAt_iff.mp found
  have isHeader : ReadsHeader family name (some '\n') taken rest := ⟨header, member, reads⟩
  obtain ⟨c, more, rfl, isWord⟩ := isHeader.exists_cons
  cases line with
  | cons d line =>
    obtain ⟨rfl, _⟩ := List.cons.inj split
    exact ⟨d, line, rfl, isWord⟩
  | nil =>
    cases below with
    | nil => cases split
    | cons line below =>
      obtain ⟨rfl, _⟩ := List.cons.inj split
      exact absurd isWord (by decide)

theorem not_declaring_nil : ¬ Declaring family name [] := by
  intro declaring
  obtain ⟨_, _, same, _⟩ := declaring.exists_cons
  cases same

theorem Declaring.not_sign (declaring : Declaring family name line) : ¬ IsSign family line := by
  rintro ⟨_, sign⟩
  obtain ⟨c, more, rfl, isWord⟩ := declaring.exists_cons
  obtain rfl := Option.some.inj sign
  exact absurd isWord (by decide)

theorem Declaring.headerStart (declaring : Declaring family name line) (cs : List Char) :
    headerStart family (line ++ cs) = line ++ cs := by
  obtain ⟨c, more, rfl, isWord⟩ := declaring.exists_cons
  unfold Prune.headerStart
  split
  · unfold dropDecorators
    split
    · next same =>
      obtain ⟨rfl, _⟩ := List.cons.inj same
      exact absurd isWord (by decide)
    · rfl
  · rfl

/-- At the start of the text a declaration starts as behind a line break. -/
theorem afterDeclaration?_none_iff : afterDeclaration? family header none cs = none ↔
    afterDeclaration? family header (some '\n') cs = none := by
  rw [afterDeclaration?_eq_none_iff, afterDeclaration?_eq_none_iff, Pattern.matchesAt_none_iff]

theorem afterDeclaration?_eq_newLines {before : Option Char} {rest : List Char}
    (member : header ∈ headers family name)
    (h : afterDeclaration? family header before cs = some rest) :
    ∃ below, rest = newLines below ∧ ∀ line ∈ below, '\n' ∉ line := by
  obtain ⟨_, _, _, ended, _⟩ := block_of_afterDeclaration? member h
  exact exists_newLines (ended.imp_right fun ⟨more, same, _⟩ => ⟨more, same⟩)

/-- Behind a line break a pass goes on from line to line. -/
theorem exists_pass_newLines (member : header ∈ headers family name)
    (below : List (List Char)) (inline : ∀ line ∈ below, '\n' ∉ line) :
    ∃ left, Pass family header below left ∧
      scan (removalStep family header) (newLines below) = newLines left := by
  induction h : (newLines below).length using Nat.strongRecOn generalizing below with
  | ind n ih =>
    cases below with
    | nil => exact ⟨[], .done, scan_nil _⟩
    | cons line below =>
      obtain ⟨here, inline⟩ := List.forall_mem_cons.mp inline
      rw [newLines_cons] at h ⊢
      simp only [List.length_cons, List.length_append] at h
      rcases scan_removalStep_cons family header '\n' (line ++ newLines below) with
        ⟨stays, same⟩ | ⟨_, rest, found, same⟩
      · obtain ⟨left, pass, scanned⟩ := ih _ (by omega) below inline rfl
        refine ⟨line :: left, .keep (stays rfl) pass, ?_⟩
        rw [same, scan_removalStep_inline here, scanned, newLines_cons]
      · obtain ⟨rest, rfl, inlineRest⟩ := afterDeclaration?_eq_newLines member found
        have shorter := length_afterDeclaration? found
        rw [List.length_append] at shorter
        obtain ⟨left, pass, scanned⟩ := ih _ (by omega) rest inlineRest rfl
        refine ⟨[] :: left, .cut rfl found inlineRest pass, ?_⟩
        rw [same, scanned, newLines_cons, List.nil_append]

theorem Pass.inline {before after : List (List Char)} (pass : Pass family header before after)
    (inline : ∀ line ∈ before, '\n' ∉ line) : ∀ line ∈ after, '\n' ∉ line := by
  induction pass with
  | done => exact inline
  | keep _ _ ih =>
    obtain ⟨here, inline⟩ := List.forall_mem_cons.mp inline
    exact List.forall_mem_cons.mpr ⟨here, ih inline⟩
  | cut _ _ inlineRest _ ih => exact List.forall_mem_cons.mpr ⟨List.not_mem_nil, ih inlineRest⟩

theorem pass_removeDeclarations (member : header ∈ headers family name) (cs : List Char) :
    Pass family header (lines cs) (lines (removeDeclarations family cs header)) := by
  obtain ⟨line, below, isLines, split⟩ := exists_lines_eq cs
  have inline := notMem_of_mem_lines cs
  rw [isLines] at inline ⊢
  obtain ⟨here, inlineBelow⟩ := List.forall_mem_cons.mp inline
  unfold removeDeclarations
  cases found : afterDeclaration? family header none cs with
  | none =>
    have stays : afterDeclaration? family header (some '\n') (line ++ newLines below) = none := by
      rw [← split]
      exact afterDeclaration?_none_iff.mp found
    obtain ⟨left, pass, scanned⟩ := exists_pass_newLines member below inlineBelow
    have whole : Pass family header (line :: below) (line :: left) := .keep stays pass
    dsimp only
    rw [split, scan_removalStep_inline here, scanned, lines_newLines (whole.inline inline)]
    exact whole
  | some rest =>
    obtain ⟨rest, rfl, inlineRest⟩ := afterDeclaration?_eq_newLines member found
    rw [split] at found
    obtain ⟨left, pass, scanned⟩ := exists_pass_newLines member rest inlineRest
    have whole : Pass family header (line :: below) ([] :: left) := .cut rfl found inlineRest pass
    have result := lines_newLines (whole.inline inline)
    dsimp only
    rw [scanned, ← List.nil_append (newLines left), result]
    exact whole

end

end PromptPack.Prune
