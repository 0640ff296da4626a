import Mathlib.Data.List.Induction
import Mathlib.Data.List.Perm.Subperm
import PromptPack.Proofs.Prune.Commute
import PromptPack.Proofs.Prune.Lines

/-! The order of the symbols. Where every header that begins on a line is complete there, or on the
lines below that belong to it, removing symbols in any order leaves the same lines, but for empty
ones: each removal leaves an empty line, and one that starts above it takes that line along. Main
statement: `strip_permuted`. -/

namespace PromptPack.Prune

open Text

/-- The pattern can be read from the start of this line on, if the right lines of the text, or empty
ones, come below it. -/
def BeginsAmong (among : List (List Char)) (p : Pattern) (line : List Char) : Prop :=
  ∃ below, (∀ part ∈ below, part ∈ among ∨ part = []) ∧
    p.matchesAt ⟨some '\n', line ++ newLines below⟩ = true

/-- The pattern can be read here, and nowhere beyond this text, whatever comes below it. -/
def ReadsWithin (p : Pattern) (text : List Char) : Prop :=
  ∀ below, p.matchesAt ⟨some '\n', text ++ newLines below⟩ = true ∧
    ∀ place ∈ p.ends ⟨some '\n', text ++ newLines below⟩, newLines below <:+ place.rest

/-- A pattern that begins on a line is complete there, or on some lines directly below on which none
begins. -/
def Whole (patterns : List Pattern) (among : List (List Char)) : List (List Char) → Prop
  | [] => True
  | line :: below =>
    (∀ p ∈ patterns, BeginsAmong among p line → ∃ extra rest, below = extra ++ rest ∧
      (∀ part ∈ extra, ∀ q ∈ patterns, ¬ BeginsAmong among q part) ∧
      ReadsWithin p (line ++ newLines extra)) ∧ Whole patterns among below

def BeginsAny (among : List (List Char)) (patterns : List Pattern) (line : List Char) : Prop :=
  ∃ p ∈ patterns, BeginsAmong among p line

def removedHeaders (family : LanguageFamily) (cs : List Char) (symbols : List String) :
    List Pattern :=
  (symbols.filter fun symbol => symbol ≠ "" ∧ isProtected family symbol.toList cs = false).flatMap
    fun symbol => headers family symbol.toList

section

variable {family : LanguageFamily} {name cs line : List Char} {header p : Pattern}
  {patterns : List Pattern} {among ls below left : List (List Char)}

theorem Whole.of_append {above : List (List Char)} (whole : Whole patterns among (above ++ ls)) :
    Whole patterns among ls := by
  induction above with
  | nil => exact whole
  | cons line above ih => exact ih whole.2

theorem Whole.of_suffix (whole : Whole patterns among ls) (suffix : below <:+ ls) :
    Whole patterns among below := by
  obtain ⟨above, rfl⟩ := suffix
  exact whole.of_append

theorem Whole.matchesAt_iff (whole : Whole patterns among (line :: below)) (member : p ∈ patterns)
    (known : ∀ part ∈ below, part ∈ among ∨ part = []) :
    p.matchesAt ⟨some '\n', line ++ newLines below⟩ = true ↔ BeginsAmong among p line := by
  refine ⟨fun found => ⟨below, known, found⟩, fun begins => ?_⟩
  obtain ⟨extra, rest, rfl, _, within⟩ := whole.1 p member begins
  have found := (within rest).1
  rwa [List.append_assoc, ← newLines_append] at found

theorem readsWithin_of_ends {text : List Char} (last : Option Char) (rest : List Char)
    (only : ∀ below, p.ends ⟨some '\n', text ++ newLines below⟩ = [⟨last, rest ++ newLines below⟩]) :
    ReadsWithin p text := by
  intro below
  refine ⟨by rw [Pattern.matchesAt, only below]; rfl, fun place member => ?_⟩
  rw [only below] at member
  obtain rfl := List.mem_singleton.mp member
  exact List.suffix_append _ _

theorem not_beginsAmong (never : ∀ below,
    p.matchesAt ⟨some '\n', line ++ newLines below⟩ = false) : ¬ BeginsAmong among p line :=
  fun ⟨below, _, found⟩ => Bool.false_ne_true ((never below).symm.trans found)

theorem boundary_nil (family : LanguageFamily) (below : List (List Char)) :
    (boundary family).matchesAt ⟨some '\n', newLines below⟩ = false := by
  cases below with
  | nil => cases family <;> rfl
  | cons line below => cases family <;> rfl

theorem boundary_sign (sign : IsSign family line) (cs : List Char) :
    (boundary family).matchesAt ⟨some '\n', line ++ cs⟩ = true := by
  obtain ⟨rfl, first⟩ := sign
  obtain ⟨text, rfl⟩ := List.head?_eq_some_iff.mp first
  rfl

open scoped Classical in
noncomputable def layoutOf (family : LanguageFamily) (among : List (List Char)) : Layout where
  sign := IsSign family
  sibling line := decide (BeginsAmong among (boundary family) line)
  sibling_of_sign sign := decide_eq_true ⟨[], by simp, boundary_sign sign _⟩
  sibling_nil := decide_eq_false fun ⟨below, _, found⟩ =>
    Bool.false_ne_true ((boundary_nil family below).symm.trans found)

theorem sibling_iff : (layoutOf family among).sibling line = true ↔
    BeginsAmong among (boundary family) line := by
  simp only [layoutOf, decide_eq_true_eq]

/-! Siblings and headers by their lines. -/

theorem fromSibling_inline {sibling : Pattern} {text : List Char} (inline : '\n' ∉ text)
    (cs : List Char) : fromSibling sibling (text ++ cs) = fromSibling sibling cs := by
  induction text with
  | nil => rfl
  | cons c text ih =>
    have noBreak : c ≠ '\n' := Ne.symm (List.ne_of_not_mem_cons inline)
    rw [List.cons_append, fromSibling, if_neg (by simp [noBreak])]
    exact ih (List.not_mem_of_not_mem_cons inline)

theorem fromSibling_of_suffix {sibling : Pattern} {rest : List Char} (suffix : rest <:+ cs)
    (behind : fromSibling sibling cs <:+ rest) :
    fromSibling sibling rest = fromSibling sibling cs := by
  induction cs with
  | nil => rw [List.suffix_nil.mp suffix]
  | cons c cs ih =>
    rcases List.suffix_cons_iff.mp suffix with rfl | shorter
    · rfl
    · unfold fromSibling at behind
      split at behind
      · have le := behind.length_le
        have less := shorter.length_le
        rw [List.length_cons] at le
        omega
      · next goes =>
        rw [fromSibling, if_neg goes]
        exact ih shorter behind

theorem fromSibling_newLines (whole : Whole patterns among ls) (member : boundary family ∈ patterns)
    (known : ∀ part ∈ ls, part ∈ among ∨ part = []) (inline : ∀ part ∈ ls, '\n' ∉ part) :
    fromSibling (boundary family) (newLines ls) =
      newLines ((layoutOf family among).toSibling ls) := by
  induction ls with
  | nil => rfl
  | cons line ls ih =>
    obtain ⟨_, knownBelow⟩ := List.forall_mem_cons.mp known
    obtain ⟨here, inlineBelow⟩ := List.forall_mem_cons.mp inline
    have stop : startsSibling (boundary family) (line ++ newLines ls) = true ↔
        (layoutOf family among).sibling line = true ∨ (line = [] ∧ ls = []) := by
      have atEnd : (line ++ newLines ls).isEmpty = true ↔ line = [] ∧ ls = [] := by
        cases ls <;> simp
      rw [startsSibling, Bool.or_eq_true, atEnd, whole.matchesAt_iff member knownBelow, or_comm]
      exact or_congr_left sibling_iff.symm
    rw [newLines_cons, fromSibling, Layout.toSibling]
    by_cases stops : startsSibling (boundary family) (line ++ newLines ls) = true
    · rw [if_pos (by simp [stops]), if_pos (stop.mp stops), newLines_cons]
    · rw [if_neg (by simp [stops]), if_neg (mt stop.mpr stops), fromSibling_inline here]
      exact ih whole.2 knownBelow inlineBelow

theorem toSibling_append {layout : Layout} {extra : List (List Char)}
    (none : ∀ part ∈ extra, layout.sibling part = false) (rest : List (List Char)) :
    layout.toSibling (extra ++ rest) = layout.toSibling rest ∨
      rest = [] ∧ extra.getLast? = some [] ∧ layout.toSibling (extra ++ rest) = [[]] := by
  induction extra with
  | nil => exact .inl rfl
  | cons line extra ih =>
    obtain ⟨here, others⟩ := List.forall_mem_cons.mp none
    rw [List.cons_append, Layout.toSibling, here]
    by_cases stop : line = [] ∧ extra ++ rest = []
    · obtain ⟨rfl, empty⟩ := stop
      obtain ⟨rfl, rfl⟩ := List.append_eq_nil_iff.mp empty
      exact .inr ⟨rfl, rfl, rfl⟩
    · rw [if_neg (not_or.mpr ⟨Bool.false_ne_true, stop⟩)]
      refine (ih others).imp_right (And.imp_right (And.imp_left fun last => ?_))
      rw [List.getLast?_cons, last]
      rfl

theorem newLines_suffix (suffix : below <:+ ls) : newLines below <:+ newLines ls := by
  obtain ⟨above, rfl⟩ := suffix
  rw [newLines_append]
  exact List.suffix_append _ _

/-- What is read at the start of the text could be read behind a line break. -/
theorem exists_mem_ends {before : Option Char} {place : Place}
    (start : before.all (· == '\n') = true) (found : place ∈ p.ends ⟨before, cs⟩) :
    ∃ again ∈ p.ends ⟨some '\n', cs⟩, again.rest = place.rest := by
  obtain ⟨after, rest⟩ := place
  obtain ⟨taken, rfl, _, reads⟩ := Pattern.mem_ends_iff.mp found
  exact ⟨⟨_, rest⟩, Pattern.mem_ends_iff.mpr ⟨taken, rfl, rfl, reads.of_lineStart start⟩, rfl⟩

theorem EndsSolid.lineBreak_suffix {before : Option Char} {place : Place} (ends : EndsSolid p)
    (last : below.getLast? = some [])
    (found : place ∈ p.ends ⟨before, line ++ newLines below⟩) : newLines [[]] <:+ place.rest := by
  obtain ⟨front, rfl⟩ := List.getLast?_eq_some_iff.mp last
  rw [newLines_append, ← List.append_assoc] at found
  rcases List.suffix_concat_iff.mp (Pattern.suffix_of_mem_ends found) with none | ⟨more, same, _⟩
  · obtain ⟨after, rest⟩ := place
    obtain rfl : rest = [] := none
    obtain ⟨taken, same, _, reads⟩ := Pattern.mem_ends_iff.mp found
    rw [List.append_nil] at same
    refine absurd ?_ (ends before taken reads)
    rw [← same, lastOf_append]
    rfl
  · exact ⟨more, same.symm⟩

/-- What a removal leaves behind a header that is read at a line: the lines from the first sibling
below it on. -/
theorem fromSibling_of_mem_ends {before : Option Char} {place : Place} (ends : EndsSolid p)
    (whole : Whole patterns among (line :: below)) (member : p ∈ patterns)
    (isBoundary : boundary family ∈ patterns) (known : ∀ part ∈ below, part ∈ among ∨ part = [])
    (inline : ∀ part ∈ line :: below, '\n' ∉ part) (start : before.all (· == '\n') = true)
    (found : place ∈ p.ends ⟨before, line ++ newLines below⟩) :
    BeginsAmong among p line ∧ fromSibling (boundary family) place.rest =
      newLines ((layoutOf family among).toSibling below) := by
  obtain ⟨again, foundBelow, sameRest⟩ := exists_mem_ends start found
  have begins : BeginsAmong among p line :=
    ⟨below, known, Pattern.matchesAt_iff_exists_mem.mpr ⟨again, foundBelow⟩⟩
  obtain ⟨here, inlineBelow⟩ := List.forall_mem_cons.mp inline
  have cuts : fromSibling (boundary family) (line ++ newLines below) =
      newLines ((layoutOf family among).toSibling below) := by
    rw [fromSibling_inline here]
    exact fromSibling_newLines whole.2 isBoundary known inlineBelow
  refine ⟨begins, ?_⟩
  rw [← cuts]
  refine fromSibling_of_suffix (Pattern.suffix_of_mem_ends found) ?_
  obtain ⟨extra, rest, rfl, quiet, within⟩ := whole.1 p member begins
  have noSibling : ∀ part ∈ extra, (layoutOf family among).sibling part = false :=
    fun part isOver => eq_false_of_ne_true (mt sibling_iff.mp (quiet part isOver _ isBoundary))
  rw [cuts]
  rcases toSibling_append noSibling rest with passed | ⟨rfl, last, stops⟩
  · rw [passed, ← sameRest]
    rw [newLines_append, ← List.append_assoc] at foundBelow
    exact (newLines_suffix (Layout.suffix_toSibling rest)).trans ((within rest).2 again foundBelow)
  · -- The text ends with an empty line here, and the header ends in front of it.
    rw [stops]
    rw [List.append_nil] at found
    exact ends.lineBreak_suffix last found

theorem declaring_of_begins (member : header ∈ headers family name)
    (begins : BeginsAmong among header line) : Declaring family name line := by
  obtain ⟨below, _, found⟩ := begins
  exact ⟨header, member, below, found⟩

theorem headers_begins (member : header ∈ headers family name) :
    (layoutOf family among).Headers (BeginsAmong among header) :=
  ⟨fun begins => not_declaring_nil (declaring_of_begins member begins),
    fun begins => (declaring_of_begins member begins).not_sign⟩

theorem opens_of_signs {layout : Layout} {starts : List Char → Prop} {run : List (List Char)}
    (signs : ∀ part ∈ run, layout.sign part) (here : starts line) :
    layout.Opens starts (run ++ line :: below) below := by
  induction run with
  | nil => exact .header here
  | cons sign run ih =>
    obtain ⟨first, others⟩ := List.forall_mem_cons.mp signs
    exact .sign first (ih others)

theorem headerStart_of_opens (member : header ∈ headers family name)
    (opens : (layoutOf family among).Opens (BeginsAmong among header) (line :: below) left)
    (inline : ∀ part ∈ line :: below, '\n' ∉ part) :
    ∃ head, head :: left <:+ line :: below ∧ BeginsAmong among header head ∧
      headerStart family (line ++ newLines below) = head ++ newLines left := by
  generalize isLines : line :: below = ls at opens
  induction opens generalizing line below with
  | header begins =>
    obtain ⟨rfl, rfl⟩ := List.cons.inj isLines
    exact ⟨line, List.suffix_refl _, begins, (declaring_of_begins member begins).headerStart _⟩
  | @sign _ ls left sign opens ih =>
    obtain ⟨rfl, rfl⟩ := List.cons.inj isLines
    obtain ⟨here, inlineBelow⟩ := List.forall_mem_cons.mp inline
    obtain ⟨isPython, first⟩ := sign
    obtain ⟨text, rfl⟩ := List.head?_eq_some_iff.mp first
    cases below with
    | nil => cases opens
    | cons next below =>
      obtain ⟨head, suffix, begins, start⟩ := ih inlineBelow rfl
      refine ⟨head, suffix.trans (List.suffix_cons _ _), begins, ?_⟩
      rw [headerStart, if_pos isPython] at start ⊢
      rw [newLines_cons, dropDecorators_lineBreak (List.not_mem_of_not_mem_cons here), start]

/-- A removal of the declarations with a header leaves what removals line by line leave. -/
theorem Pass.leaves (pass : Pass family header ls left) (member : header ∈ headers family name)
    (isPattern : header ∈ patterns) (isBoundary : boundary family ∈ patterns)
    (whole : Whole patterns among ls) (known : ∀ part ∈ ls, part ∈ among ∨ part = [])
    (inline : ∀ part ∈ ls, '\n' ∉ part) :
    (layoutOf family among).Leaves (BeginsAmong among header) false ls left := by
  induction pass with
  | done => exact .done
  | @keep line below left stays _ ih =>
    refine .keep (fun rest opens => ?_) (ih whole.2 (List.forall_mem_cons.mp known).2
      (List.forall_mem_cons.mp inline).2)
    obtain ⟨head, suffix, begins, start⟩ := headerStart_of_opens member opens inline
    have knownRest : ∀ part ∈ rest, part ∈ among ∨ part = [] := fun part isRest =>
      known part (suffix.subset (List.mem_cons_of_mem _ isRest))
    have found := ((whole.of_suffix suffix).matchesAt_iff isPattern knownRest).mpr begins
    rw [← start] at found
    exact afterDeclaration?_eq_none_iff.mp stays found
  | @cut before line below rest left start found inlineRest _ ih =>
    obtain ⟨run, head, behind, isLines, text, signs⟩ := exists_headerStart family inline
    rw [isLines] at whole known inline ⊢
    have suffix : head :: behind <:+ run ++ head :: behind := List.suffix_append _ _
    have suffixBehind : behind <:+ run ++ head :: behind := (List.suffix_cons _ _).trans suffix
    obtain ⟨place, ended, isRest⟩ := Option.map_eq_some_iff.mp found
    rw [text] at ended
    obtain ⟨begins, cuts⟩ := fromSibling_of_mem_ends (endsSolid_header member)
      (whole.of_suffix suffix) isPattern isBoundary (fun part isBehind => known part (suffixBehind.subset isBehind))
      (fun part isHead => inline part (suffix.subset isHead)) start (List.mem_of_head? ended)
    have suffixRest := ((layoutOf family among).suffix_toSibling behind).trans suffixBehind
    obtain rfl : rest = (layoutOf family among).toSibling behind := by
      have inlineLeft : ∀ part ∈ (layoutOf family among).toSibling behind, '\n' ∉ part :=
        fun part isLeft => inline part (suffixRest.subset isLeft)
      have same : [] :: rest = [] :: (layoutOf family among).toSibling behind :=
        cons_eq_of_inline (List.forall_mem_cons.mpr ⟨List.not_mem_nil, inlineRest⟩)
          (List.forall_mem_cons.mpr ⟨List.not_mem_nil, inlineLeft⟩) (isRest.symm.trans cuts)
      exact (List.cons.inj same).2
    exact .cut (opens_of_signs signs begins) (ih (whole.of_suffix suffixRest)
      (fun part isLeft => known part (suffixRest.subset isLeft)) inlineRest).weaken

/-! Removals leave headers whole. -/

theorem exists_append_of_leaves {layout : Layout} {starts : List Char → Prop}
    {extra rest : List (List Char)} (quiet : ∀ part ∈ extra, ¬ starts part ∧ ¬ layout.sign part)
    (leaves : layout.Leaves starts false (extra ++ rest) left) : ∃ more, left = extra ++ more := by
  induction extra generalizing left with
  | nil => exact ⟨left, rfl⟩
  | cons line extra ih =>
    obtain ⟨here, others⟩ := List.forall_mem_cons.mp quiet
    generalize isLines : line :: extra ++ rest = ls at leaves
    cases leaves with
    | done => cases isLines
    | keep _ later =>
      obtain ⟨rfl, rfl⟩ := List.cons.inj isLines
      obtain ⟨more, rfl⟩ := ih others later
      exact ⟨more, rfl⟩
    | cut opens _ =>
      subst isLines
      cases opens with
      | header starts => exact absurd starts here.1
      | sign sign _ => exact absurd sign here.2

theorem mem_of_leaves {layout : Layout} {starts : List Char → Prop} {flag : Bool}
    (leaves : layout.Leaves starts flag ls left) : ∀ part ∈ left, part ∈ ls ∨ part = [] := by
  induction leaves with
  | done => exact fun part member => .inl member
  | tail => exact fun part member => .inr (List.mem_singleton.mp member)
  | keep _ _ ih =>
    intro part member
    rcases List.mem_cons.mp member with rfl | member
    · exact .inl List.mem_cons_self
    · exact (ih part member).imp_left (List.mem_cons_of_mem _)
  | @cut _ ls below left opens _ ih =>
    intro part member
    rcases List.mem_cons.mp member with rfl | member
    · exact .inr rfl
    · exact (ih part member).imp_left (opens.suffix_toSibling.subset ·)
  | @skip ls below left opens _ ih =>
    exact fun part member => (ih part member).imp_left (opens.suffix_toSibling.subset ·)

theorem Whole.of_leaves {starts : List Char → Prop} {flag : Bool} (whole : Whole patterns among ls)
    (isBoundary : boundary family ∈ patterns) (solid : ¬ BeginsAny among patterns [])
    (sub : ∀ line, starts line → BeginsAny among patterns line)
    (leaves : (layoutOf family among).Leaves starts flag ls left) : Whole patterns among left := by
  induction leaves with
  | done => trivial
  | tail => exact ⟨fun p member begins => absurd ⟨p, member, begins⟩ solid, trivial⟩
  | @keep _ line ls left _ later ih =>
    refine ⟨fun p member begins => ?_, ih whole.2⟩
    obtain ⟨extra, rest, rfl, quiet, within⟩ := whole.1 p member begins
    have apart : ∀ part ∈ extra, ¬ starts part ∧ ¬ (layoutOf family among).sign part := by
      refine fun part isOver => ⟨fun begins => ?_, fun sign => ?_⟩
      · obtain ⟨q, isPattern, begins⟩ := sub part begins
        exact quiet part isOver q isPattern begins
      · exact quiet part isOver _ isBoundary (sibling_iff.mp (Layout.sibling_of_sign _ sign))
    obtain ⟨more, rfl⟩ := exists_append_of_leaves apart later
    exact ⟨extra, more, rfl, quiet, within⟩
  | cut opens _ ih =>
    exact ⟨fun p member begins => absurd ⟨p, member, begins⟩ solid,
      ih (whole.of_suffix opens.suffix_toSibling)⟩
  | skip opens _ ih => exact ih (whole.of_suffix opens.suffix_toSibling)

/-! One removal after the other. -/

theorem headers_beginsAny {family : LanguageFamily} {patterns : List Pattern}
    (areHeaders : ∀ p ∈ patterns, ∃ name, p ∈ headers family name) :
    (layoutOf family among).Headers (BeginsAny among patterns) := by
  have declares : ∀ {line}, BeginsAny among patterns line → ∃ name, Declaring family name line := by
    rintro line ⟨p, member, begins⟩
    obtain ⟨name, isHeader⟩ := areHeaders p member
    exact ⟨name, declaring_of_begins isHeader begins⟩
  refine ⟨fun begins => ?_, fun begins => ?_⟩
  · obtain ⟨_, declaring⟩ := declares begins
    exact not_declaring_nil declaring
  · obtain ⟨_, declaring⟩ := declares begins
    exact declaring.not_sign

theorem beginsAny_concat (earlier : List Pattern) (p : Pattern) :
    BeginsAny among (earlier ++ [p]) =
      fun line => BeginsAny among earlier line ∨ BeginsAmong among p line := by
  funext line
  simp only [BeginsAny, List.mem_append, List.mem_singleton, or_and_right, exists_or,
    exists_eq_left]

/-- What the lines of a text must be like for removals to be followed line by line. -/
structure Settles (family : LanguageFamily) (patterns : List Pattern) (ls : List (List Char)) :
    Prop where
  boundary : boundary family ∈ patterns
  solid : ¬ BeginsAny ls patterns []
  whole : Whole patterns ls ls
  inline : ∀ part ∈ ls, '\n' ∉ part

theorem Settles.removeDeclarations {earlier : List Pattern} (settles : Settles family patterns ls)
    (member : header ∈ headers family name) (sub : ∀ p ∈ earlier ++ [header], p ∈ patterns)
    (leaves : (layoutOf family ls).Leaves (BeginsAny ls earlier) false ls (lines cs)) :
    (layoutOf family ls).Leaves (BeginsAny ls (earlier ++ [header])) false ls
      (lines (removeDeclarations family cs header)) := by
  have known := mem_of_leaves leaves
  have isPattern := sub header (List.mem_append_right _ List.mem_cons_self)
  have whole : Whole patterns ls (lines cs) := settles.whole.of_leaves settles.boundary
    settles.solid (fun line ⟨p, isEarlier, begins⟩ =>
      ⟨p, sub p (List.mem_append_left _ isEarlier), begins⟩) leaves
  rw [beginsAny_concat]
  exact leaves.trans (headers_begins member) ((pass_removeDeclarations member cs).leaves member
    isPattern settles.boundary whole known (notMem_of_mem_lines cs))

theorem Settles.removeAll {earlier later : List Pattern} (settles : Settles family patterns ls)
    (areHeaders : ∀ p ∈ later, p ∈ headers family name) (sub : ∀ p ∈ earlier ++ later, p ∈ patterns)
    (leaves : (layoutOf family ls).Leaves (BeginsAny ls earlier) false ls (lines cs)) :
    (layoutOf family ls).Leaves (BeginsAny ls (earlier ++ later)) false ls
      (lines (later.foldl (Prune.removeDeclarations family) cs)) := by
  induction later generalizing earlier cs with
  | nil => rwa [List.append_nil]
  | cons header later ih =>
    obtain ⟨member, areHeaders⟩ := List.forall_mem_cons.mp areHeaders
    rw [List.append_cons] at sub ⊢
    rw [List.foldl_cons]
    refine ih areHeaders sub (settles.removeDeclarations member ?_ leaves)
    exact fun p isEarlier => sub p (List.mem_append_left _ isEarlier)

theorem removedHeaders_concat (cs : List Char) (earlier : List String) (symbol : String) :
    removedHeaders family cs (earlier ++ [symbol]) = removedHeaders family cs earlier ++
      if symbol ≠ "" ∧ isProtected family symbol.toList cs = false then
        headers family symbol.toList else [] := by
  unfold removedHeaders
  rw [List.filter_append, List.flatMap_append]
  congr 1
  split <;> simp_all

theorem exists_headers_of_mem {symbols : List String}
    (member : p ∈ removedHeaders family cs symbols) : ∃ name, p ∈ headers family name := by
  obtain ⟨symbol, _, isHeader⟩ := List.mem_flatMap.mp member
  exact ⟨_, isHeader⟩

theorem mem_removedHeaders_of_perm {xs ys : List String} (perm : xs.Perm ys) :
    p ∈ removedHeaders family cs xs ↔ p ∈ removedHeaders family cs ys := by
  simp only [removedHeaders, List.mem_flatMap, List.mem_filter, perm.mem_iff]

theorem not_beginsAny_nil {symbols : List String} :
    ¬ BeginsAny among (boundary family :: removedHeaders family cs symbols) [] := by
  rintro ⟨p, member, begins⟩
  rcases List.mem_cons.mp member with rfl | member
  · obtain ⟨below, _, found⟩ := begins
    exact Bool.false_ne_true ((boundary_nil family below).symm.trans found)
  · obtain ⟨_, isHeader⟩ := exists_headers_of_mem member
    exact not_declaring_nil (declaring_of_begins isHeader begins)

theorem settles_of_whole {symbols : List String}
    (whole : Whole (boundary family :: removedHeaders family cs symbols) (lines cs) (lines cs)) :
    Settles family (boundary family :: removedHeaders family cs symbols) (lines cs) :=
  ⟨List.mem_cons_self, not_beginsAny_nil, whole, notMem_of_mem_lines cs⟩

theorem subperm_of_append {xs ys earlier later : List String} {symbol : String} (perm : xs.Perm ys)
    (split : ys = earlier ++ symbol :: later) : (symbol :: earlier).Subperm xs := by
  have front : (earlier ++ [symbol]).Sublist ys := by
    rw [split]
    exact (List.Sublist.refl earlier).append ((List.nil_sublist later).cons_cons symbol)
  exact (List.perm_append_singleton symbol earlier).symm.subperm.trans
    (front.subperm.trans perm.symm.subperm)

/-- The lines left are those that removals of all the headers leave, whatever the order. -/
theorem Settles.stripSymbols (settles : Settles family patterns (lines cs)) (symbols : List String)
    (steady : ∀ earlier symbol later, symbols = earlier ++ symbol :: later →
      isProtected family symbol.toList (stripSymbols family earlier cs) =
        isProtected family symbol.toList cs)
    (sub : ∀ p ∈ removedHeaders family cs symbols, p ∈ patterns) :
    (layoutOf family (lines cs)).Leaves (BeginsAny (lines cs) (removedHeaders family cs symbols))
      false (lines cs) (lines (Prune.stripSymbols family symbols cs)) := by
  induction symbols using List.reverseRecOn with
  | nil => exact .refl (fun line ⟨p, member, _⟩ => absurd member List.not_mem_nil) _
  | append_singleton earlier symbol ih =>
    rw [removedHeaders_concat] at sub ⊢
    have leaves := ih
      (fun first next later split => steady first next (later ++ [symbol]) (by simp [split]))
      (fun p member => sub p (List.mem_append_left _ member))
    have same := steady earlier symbol [] rfl
    have last : Prune.stripSymbols family (earlier ++ [symbol]) cs =
        stripSymbol family (Prune.stripSymbols family earlier cs) symbol := by
      simp only [Prune.stripSymbols, List.foldl_append, List.foldl_cons, List.foldl_nil]
    rw [last]
    split at sub
    · next removed =>
      rw [if_pos removed]
      rw [stripSymbol_of_removed removed.1 (same.trans removed.2)]
      exact settles.removeAll (fun _ member => member) sub leaves
    · next kept =>
      rw [if_neg kept, List.append_nil]
      have stays : symbol = "" ∨
          isProtected family symbol.toList (Prune.stripSymbols family earlier cs) = true := by
        rw [same]
        by_cases empty : symbol = ""
        · exact .inl empty
        · exact .inr (eq_true_of_ne_false fun unprotected => kept ⟨empty, unprotected⟩)
      rwa [stripSymbol_eq_self_iff.mpr (stays.imp_right .inl)]

end

/-- Symbols leave the same lines in any order, up to the number of empty lines in a row, if no
removal changes whether a symbol is protected and each header that begins on a line is complete. -/
theorem strip_permuted (content : String) (xs ys : List String) (family : LanguageFamily)
    (perm : xs.Perm ys)
    (steady : ∀ earlier symbol, (symbol :: earlier).Subperm xs →
      isProtected family symbol.toList (stripSymbols family earlier content.toList) =
        isProtected family symbol.toList content.toList)
    (whole : Whole (boundary family :: removedHeaders family content.toList xs)
      (lines content.toList) (lines content.toList)) :
    squeeze (lines (stripUnreachable content xs family).value.toList) =
      squeeze (lines (stripUnreachable content ys family).value.toList) := by
  rw [value_stripUnreachable, value_stripUnreachable]
  split
  · rfl
  · rw [String.toList_ofList, String.toList_ofList]
    have settles := settles_of_whole whole
    have first := settles.stripSymbols xs
      (fun _ _ _ split => steady _ _ (subperm_of_append (.refl xs) split))
      (fun _ => List.mem_cons_of_mem _)
    have second := settles.stripSymbols ys
      (fun _ _ _ split => steady _ _ (subperm_of_append perm split))
      (fun _ member => List.mem_cons_of_mem _ ((mem_removedHeaders_of_perm perm).mpr member))
    have same : BeginsAny (lines content.toList) (removedHeaders family content.toList ys) =
        BeginsAny (lines content.toList) (removedHeaders family content.toList xs) := by
      funext line
      exact propext (exists_congr fun p => and_congr_left fun _ =>
        (mem_removedHeaders_of_perm perm).symm)
    rw [same] at second
    exact first.squeeze_eq (headers_beginsAny fun _ member => exists_headers_of_mem member) second

/-- Two functions, one with parameters on lines of their own. The two orders leave one empty line
more, or one less. -/
theorem strip_permuted_functions :
    let content := "func a() \x7b\x7d\nfunc b(\n\tx int,\n) \x7b\x7d\n"
    ["a", "b"].Perm ["b", "a"] ∧
      (∀ earlier symbol, (symbol :: earlier).Subperm ["a", "b"] →
        isProtected .go symbol.toList (stripSymbols .go earlier content.toList) =
          isProtected .go symbol.toList content.toList) ∧
      Whole (boundary .go :: removedHeaders .go content.toList ["a", "b"]) (lines content.toList)
        (lines content.toList) ∧
      squeeze (lines (stripUnreachable content ["a", "b"] .go).value.toList) =
        squeeze (lines (stripUnreachable content ["b", "a"] .go).value.toList) := by
  intro content
  have perm : ["a", "b"].Perm ["b", "a"] := .swap "b" "a" []
  have steady : ∀ earlier symbol, (symbol :: earlier).Subperm ["a", "b"] →
      isProtected .go symbol.toList (stripSymbols .go earlier content.toList) =
        isProtected .go symbol.toList content.toList := fun _ _ _ => rfl
  have split : lines content.toList = ["func a() \x7b\x7d".toList, "func b(".toList,
      "\tx int,".toList, ") \x7b\x7d".toList, []] := by decide +kernel
  have patterns : ∀ p ∈ boundary .go :: removedHeaders .go content.toList ["a", "b"],
      p = boundary .go ∨ p ∈ headers .go ['a'] ∨ p ∈ headers .go ['b'] := by
    have removed : ["a", "b"].filter (fun symbol => symbol ≠ "" ∧
        isProtected .go symbol.toList content.toList = false) = ["a", "b"] := by decide +kernel
    rw [removedHeaders, removed]
    simp
  have quiet : ∀ part ∈ ["\tx int,".toList, ") \x7b\x7d".toList],
      ∀ p ∈ boundary .go :: removedHeaders .go content.toList ["a", "b"],
        ¬ BeginsAmong (lines content.toList) p part := by
    intro part isPart p member
    refine not_beginsAmong fun below => ?_
    simp only [List.mem_cons, List.not_mem_nil, or_false] at isPart
    rcases patterns p member with rfl | isHeader | isHeader
    · rcases isPart with rfl | rfl <;> rfl
    · obtain rfl := List.mem_singleton.mp isHeader
      rcases isPart with rfl | rfl <;> rfl
    · obtain rfl := List.mem_singleton.mp isHeader
      rcases isPart with rfl | rfl <;> rfl
  have whole : Whole (boundary .go :: removedHeaders .go content.toList ["a", "b"])
      (lines content.toList) (lines content.toList) := by
    generalize lines content.toList = among at split quiet ⊢
    conv => arg 3; rw [split]
    refine ⟨fun p member begins => ?_, fun p member begins => ?_,
      fun p member begins => absurd begins (quiet _ (by simp) p member),
      fun p member begins => absurd begins (quiet _ (by simp) p member),
      fun p member begins => absurd ⟨p, member, begins⟩ not_beginsAny_nil, trivial⟩
    · rcases patterns p member with rfl | isHeader | isHeader
      · exact ⟨[], _, rfl, by simp,
          readsWithin_of_ends (some ' ') "a() \x7b\x7d".toList fun _ => rfl⟩
      · obtain rfl := List.mem_singleton.mp isHeader
        exact ⟨[], _, rfl, by simp,
          readsWithin_of_ends (some ')') " \x7b\x7d".toList fun _ => rfl⟩
      · obtain rfl := List.mem_singleton.mp isHeader
        exact absurd begins (not_beginsAmong fun _ => rfl)
    · rcases patterns p member with rfl | isHeader | isHeader
      · exact ⟨[], _, rfl, by simp,
          readsWithin_of_ends (some ' ') "b(".toList fun _ => rfl⟩
      · obtain rfl := List.mem_singleton.mp isHeader
        exact absurd begins (not_beginsAmong fun _ => rfl)
      · obtain rfl := List.mem_singleton.mp isHeader
        exact ⟨["\tx int,".toList, ") \x7b\x7d".toList], [[]], rfl, quiet,
          readsWithin_of_ends (some ')') " \x7b\x7d".toList fun _ => rfl⟩
  exact ⟨perm, steady, whole, strip_permuted content ["a", "b"] ["b", "a"] .go perm steady whole⟩

/-- A removal leaves an empty line, which goes with a removal above it that comes later. And what a
removal leaves can complete a header that goes on below its line. -/
theorem strip_depends_on_order :
    let content := "def y():\n    pass\n\ndef x():\n    pass\n\ndef z():\n    pass\n"
    let broken := "async\nclass x:\n    pass\n\ndef y():\n    pass\n"
    ["y", "x"].Perm ["x", "y"] ∧
      (stripUnreachable content ["y", "x"] .python).value ≠
        (stripUnreachable content ["x", "y"] .python).value ∧
      squeeze (lines (stripUnreachable broken ["y", "x"] .python).value.toList) ≠
        squeeze (lines (stripUnreachable broken ["x", "y"] .python).value.toList) := by
  intro content broken
  exact ⟨.swap "x" "y" [], by decide +kernel, by decide +kernel⟩

end PromptPack.Prune
