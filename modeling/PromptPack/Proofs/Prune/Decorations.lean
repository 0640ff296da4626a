import PromptPack.Proofs.Prune.Lines
import PromptPack.Proofs.Prune.Siblings

/-! Decorations of declarations: decorators in Python, attributes in Rust. The outline of a text
gives each of its lines the decorations above it. A removal takes along the lines that start with an
at sign right above its header, so where the declarations that go have no other decorations, those
that stay keep exactly their own. Main statement: `strip_keeps_decorations`. -/

namespace PromptPack.Prune

open Text

/-! Reading decorations, which may run over lines. -/

inductive Token where
  | code
  | string (fence : List Char) (escapes : Bool)
  | remark
  /-- A comment up to its closer, in as many others. -/
  | note (outer : Nat)
deriving DecidableEq, Repr

def comment? (family : LanguageFamily) (cs : List Char) : Option (Token × Nat) :=
  match family, cs with
  | .python, '#' :: _ => some (.remark, 1)
  | .rust, '/' :: '/' :: _ => some (.remark, 2)
  | .rust, '/' :: '*' :: _ => some (.note 0, 2)
  | _, _ => none

/-- The string or character that starts here, and the length of its opener. A quote in front of a
lifetime opens nothing. -/
def string? (family : LanguageFamily) (cs : List Char) : Option (Token × Nat) :=
  match family, cs with
  | .python, '"' :: '"' :: '"' :: _ => some (.string (.replicate 3 '"') true, 3)
  | .python, '\'' :: '\'' :: '\'' :: _ => some (.string (.replicate 3 '\'') true, 3)
  | .python, '\'' :: _ => some (.string ['\''] true, 1)
  | .rust, '\'' :: '\\' :: _ => some (.string ['\''] true, 1)
  | .rust, '\'' :: _ :: '\'' :: _ => some (.string ['\''] true, 1)
  | .rust, 'r' :: rest =>
    let fence := '"' :: rest.takeWhile (· == '#')
    if (rest.dropWhile (· == '#')).head? = some '"' then
      some (.string fence false, fence.length + 1)
    else none
  | _, '"' :: _ => some (.string ['"'] true, 1)
  | _, _ => none

def decorationOpener : LanguageFamily → List Char
  | .rust => ['#', '[']
  | _ => ['@']

/-- Where reading stands: in a decoration with that many open brackets, or between decorations. -/
structure Cursor where
  depth : Option Nat := none
  token : Token := .code
  /-- How many characters of an opener or a closer are still to be read. -/
  skip : Nat := 0
deriving DecidableEq, Repr

namespace Cursor

/-- A character outside strings and comments. Between decorations, nothing but white space and the
next one keeps the text a text of decorations. -/
def inCode (family : LanguageFamily) (cursor : Cursor) (c : Char) : Option Cursor :=
  match cursor.depth with
  | none =>
    if isBlank c then some cursor
    else if (decorationOpener family).head? = some c then some { cursor with depth := some 0 }
    else none
  | some depth =>
    if c = '(' ∨ c = '[' ∨ c = '\x7b' then some { cursor with depth := some (depth + 1) }
    else if c = ')' ∨ c = ']' ∨ c = '\x7d' then
      some { cursor with depth := if family = .rust ∧ depth ≤ 1 then none else some (depth - 1) }
    else if c = '\n' ∧ depth = 0 then some { cursor with depth := none }
    else if c = '\\' then some { cursor with skip := 1 }
    else some cursor

def next? (family : LanguageFamily) (cursor : Cursor) (c : Char) (cs : List Char) :
    Option Cursor :=
  match cursor.skip, cursor.token with
  | skip + 1, _ => some { cursor with skip }
  | 0, .code =>
    match (comment? family (c :: cs)).or
      (if cursor.depth.isSome then string? family (c :: cs) else none) with
    | some (token, length) => some { cursor with token, skip := length - 1 }
    | none => cursor.inCode family c
  | 0, .string fence escapes =>
    if escapes ∧ c = '\\' then some { cursor with skip := 1 }
    else if fence <+: c :: cs then some { cursor with token := .code, skip := fence.length - 1 }
    else some cursor
  | 0, .remark =>
    if c = '\n' then { cursor with token := .code }.inCode family c else some cursor
  | 0, .note outer =>
    if ['/', '*'] <+: c :: cs then some { cursor with token := .note (outer + 1), skip := 1 }
    else if ['*', '/'] <+: c :: cs then
      some { cursor with token := if outer = 0 then .code else .note (outer - 1), skip := 1 }
    else some cursor

/-- Whether the text has nothing but decorations, comments and white space, the last of which may go
on behind it. -/
def decorates (family : LanguageFamily) (cursor : Cursor) : List Char → Bool
  | [] => true
  | c :: cs =>
    match cursor.next? family c cs with
    | some next => next.decorates family cs
    | none => false

end Cursor

def startsDecoration (family : LanguageFamily) (line : List Char) : Bool :=
  decide (decorationOpener family <+: line)

/-- What stands right above a line: the lines from its first decoration on, and the lines that start
with an at sign in Python. -/
structure Above where
  decorations : List (List Char) := []
  signs : List (List Char) := []
deriving DecidableEq, Repr

namespace Above

def read (family : LanguageFamily) (above : Above) (line : List Char) : Above where
  decorations :=
    let text := above.decorations ++ [line]
    if (above.decorations ≠ [] ∨ startsDecoration family line = true) ∧
      Cursor.decorates family {} (unlines text) = true then text else []
  signs := if IsSign family line then above.signs ++ [line] else []

def readAll (family : LanguageFamily) (above : Above) (ls : List (List Char)) : Above :=
  ls.foldl (read family) above

end Above

structure Entry where
  decorations : List (List Char)
  text : List Char
deriving DecidableEq, Repr

def outlineFrom (family : LanguageFamily) (above : Above) : List (List Char) → List Entry
  | [] => []
  | line :: below =>
    let next := above.read family line
    (if next.decorations = [] ∧ ¬ line.all isBlank then [⟨above.decorations, line⟩] else []) ++
      outlineFrom family next below

/-- The lines that are no decorations, each with its own. -/
def outline (family : LanguageFamily) (cs : List Char) : List Entry :=
  outlineFrom family {} (lines cs)

/-- What decorates the lines that begin so is the lines with an at sign right above them. -/
def PlainlyDecorated (family : LanguageFamily) (begins : List Char → Prop) (above : Above) :
    List (List Char) → Prop
  | [] => True
  | line :: below =>
    (begins line → above.decorations = above.signs ∧ (above.read family line).decorations = []) ∧
      PlainlyDecorated family begins (above.read family line) below

/-- The turn of the symbol comes, and it is not protected in what the earlier ones left. -/
def Removes (family : LanguageFamily) (symbols : List String) (cs : List Char) (symbol : String) :
    Prop :=
  ∃ earlier later, symbols = earlier ++ symbol :: later ∧ symbol ≠ "" ∧
    isProtected family symbol.toList (stripSymbols family earlier cs) = false

section

variable {family : LanguageFamily} {name cs taken rest : List Char} {header : Pattern}
  {above : Above} {line : List Char} {ls below : List (List Char)} {begins : List Char → Prop}

theorem Above.read_empty : ({} : Above).read family [] = {} := by
  cases family <;> rfl

theorem Above.readAll_cons (line : List Char) (below : List (List Char)) :
    above.readAll family (line :: below) = (above.read family line).readAll family below := rfl

theorem outlineFrom_append (ls more : List (List Char)) :
    outlineFrom family above (ls ++ more) =
      outlineFrom family above ls ++ outlineFrom family (above.readAll family ls) more := by
  induction ls generalizing above with
  | nil => rfl
  | cons line ls ih =>
    rw [List.cons_append, outlineFrom, outlineFrom, ih, Above.readAll_cons, List.append_assoc]

theorem plainlyDecorated_append (ls more : List (List Char)) :
    PlainlyDecorated family begins above (ls ++ more) ↔
      PlainlyDecorated family begins above ls ∧
        PlainlyDecorated family begins (above.readAll family ls) more := by
  induction ls generalizing above with
  | nil => exact (true_and _).to_iff.symm
  | cons line ls ih =>
    rw [List.cons_append, PlainlyDecorated, PlainlyDecorated, ih, Above.readAll_cons, and_assoc]

theorem Above.decorations_readAll (family : LanguageFamily) (above : Above)
    (ls : List (List Char)) :
    (above.readAll family ls).decorations = above.decorations ++ ls ∨
      (above.readAll family ls).decorations.length < ls.length := by
  induction ls generalizing above with
  | nil => exact .inl (List.append_nil _).symm
  | cons line ls ih =>
    rw [Above.readAll_cons]
    have first : (above.read family line).decorations = above.decorations ++ [line] ∨
        (above.read family line).decorations = [] := by
      simp only [Above.read]
      split
      · exact .inl rfl
      · exact .inr rfl
    rcases ih (above.read family line) with all | fewer
    · rcases first with more | none
      · rw [all, more]
        exact .inl (by simp)
      · rw [all, none]
        exact .inr (by simp)
    · exact .inr (Nat.lt_succ_of_lt fewer)

theorem Above.readAll_signs (signs : ∀ line ∈ ls, IsSign family line) :
    (above.readAll family ls).signs = above.signs ++ ls := by
  induction ls generalizing above with
  | nil => exact (List.append_nil _).symm
  | cons line ls ih =>
    obtain ⟨first, others⟩ := List.forall_mem_cons.mp signs
    rw [Above.readAll_cons, ih others]
    simp only [Above.read]
    rw [if_pos first, List.append_assoc, List.singleton_append]

theorem not_sign_of_not_startsDecoration (h : startsDecoration family line = false) :
    ¬ IsSign family line := by
  rintro ⟨rfl, sign⟩
  obtain ⟨text, rfl⟩ := List.head?_eq_some_iff.mp sign
  simp [startsDecoration, decorationOpener] at h

theorem Above.readAll_plain (plain : ∀ line ∈ ls, startsDecoration family line = false)
    (none : above.decorations = []) (some : ls ≠ [] ∨ above.signs = []) :
    above.readAll family ls = {} := by
  induction ls generalizing above with
  | nil =>
    obtain ⟨decorations, signs⟩ := above
    obtain rfl : decorations = [] := none
    obtain rfl : signs = [] := some.resolve_left fun nonempty => nonempty rfl
    rfl
  | cons line ls ih =>
    obtain ⟨first, others⟩ := List.forall_mem_cons.mp plain
    rw [Above.readAll_cons]
    refine ih others ?_ (.inr ?_)
    · simp [Above.read, none, first]
    · simp only [Above.read]
      exact if_neg (not_sign_of_not_startsDecoration first)

/-! What a header reads, character by character. -/

def Decorated (family : LanguageFamily) : Prop := family = .python ∨ family = .rust

theorem Decorated.ne_go (decorated : Decorated family) : family ≠ .go := by
  rintro rfl
  rcases decorated with h | h <;> cases h

theorem Lead.forall_mem {p : Char → Prop} (notGo : family ≠ .go)
    (separator : ∀ c, isSeparator c = true → p c) (words : ∀ c, isWord c = true → p c)
    (lead : Lead family cs) : ∀ c ∈ cs, p c := by
  induction lead with
  | nil => exact fun _ member => absurd member List.not_mem_nil
  | @separator c cs isSep _ ih => exact List.forall_mem_cons.mpr ⟨separator c isSep, ih⟩
  | @keyword key c cs isKey isSep _ ih =>
    have spelled : ∀ d ∈ key.toList, p d := fun d member =>
      words d ((isWord_of_keyword isKey).2 d member)
    exact List.forall_mem_append.mpr
      ⟨spelled, List.forall_mem_cons.mpr ⟨separator c isSep, ih⟩⟩
  | receiver isGo _ _ _ => exact absurd isGo notGo

theorem ReadsHeader.not_mem {before : Option Char} {c : Char} (decorated : Decorated family)
    (reads : ReadsHeader family name before taken rest) (sign : c = '@' ∨ c = '#')
    (outside : c ∉ name) : c ∉ taken := by
  obtain ⟨opening, closing, split, opens, closes, _⟩ := reads.parts
  have noSeparator : ∀ d, isSeparator d = true → d ≠ c := by
    rintro d isSep rfl
    rcases sign with rfl | rfl <;> exact absurd isSep (by decide)
  have noWord : ∀ d, isWord d = true → d ≠ c := by
    rintro d isWord rfl
    rcases sign with rfl | rfl <;> exact absurd isWord (by decide)
  have noCloser : ∀ d ∈ ['(', '<', '=', ':'], d ≠ c := by
    rcases sign with rfl | rfl <;> simp
  have noOpening : c ∉ opening := fun member =>
    opens.lead.forall_mem decorated.ne_go noSeparator noWord c member rfl
  have noClosing : c ∉ closing := by
    cases closes with
    | edge => exact List.not_mem_nil
    | @closer space more d blank isCloser short =>
      rw [short.resolve_left decorated.ne_go]
      intro member
      rcases List.mem_append.mp member with member | member
      · exact noSeparator c (isSeparator_of_isBlank (blank c member)) rfl
      · exact noCloser d isCloser (List.mem_singleton.mp member).symm
  rw [split]
  simp only [List.mem_append, not_or]
  exact ⟨noOpening, outside, noClosing⟩

theorem ReadsHeader.not_ends {before : Option Char} {inner : List Char}
    (decorated : Decorated family) (nonempty : name ≠ []) (inline : '\n' ∉ name)
    (reads : ReadsHeader family name before (inner ++ ['\n']) rest) : False := by
  obtain ⟨opening, closing, split, _, closes, _⟩ := reads.parts
  have last : '\n' ∈ (opening ++ (name ++ closing)).getLast? := by
    rw [← split, List.getLast?_concat]
    rfl
  cases closes with
  | edge =>
    rw [List.append_nil, List.getLast?_append_of_ne_nil _ nonempty] at last
    exact inline (List.mem_of_getLast? last)
  | @closer space more d blank isCloser short =>
    rw [short.resolve_left decorated.ne_go, ← List.append_assoc, ← List.append_assoc,
      List.getLast?_concat] at last
    obtain rfl := Option.some.inj last
    exact absurd isCloser (by decide)

theorem sign_of_startsDecoration (starts : startsDecoration family line = true) :
    ∃ c more, line = c :: more ∧ (c = '@' ∨ c = '#') := by
  obtain ⟨more, rfl⟩ := of_decide_eq_true starts
  cases family
  case rust => exact ⟨'#', '[' :: more, rfl, .inr rfl⟩
  all_goals exact ⟨'@', more, rfl, .inl rfl⟩

theorem Declaring.not_startsDecoration (declaring : Declaring family name line) :
    startsDecoration family line = false := by
  obtain ⟨c, more, rfl, isWord⟩ := declaring.exists_cons
  refine eq_false_of_ne_true fun starts => ?_
  obtain ⟨d, others, same, sign⟩ := sign_of_startsDecoration starts
  obtain ⟨rfl, _⟩ := List.cons.inj same
  rcases sign with rfl | rfl <;> exact absurd isWord (by decide)

theorem startsSibling_of_startsDecoration (decorated : Decorated family)
    (starts : startsDecoration family line = true) (cs : List Char) :
    startsSibling (boundary family) (line ++ cs) = true := by
  obtain ⟨more, rfl⟩ := of_decide_eq_true starts
  have found : (boundary family).matchesAt
      ⟨some '\n', decorationOpener family ++ more ++ cs⟩ = true := by
    rw [Pattern.matchesAt_iff, List.append_assoc]
    rcases decorated with rfl | rfl
    · exact reads_word_anyOf (s := "@") (by simp) _
    · exact reads_word_anyOf (s := "#[") (by simp) _
  rw [startsSibling, found, Bool.or_true]

/-! The lines that a removal takes out. -/

/-- No line below the first of a declaration starts a decoration: it is in the header, which has no
sign in it, or it starts no sibling. -/
theorem Block.DeclaresName.not_startsDecoration {block : Block} {before : Option Char}
    {back inner more : List Char} (declares : block.DeclaresName family name before back)
    (decorated : Decorated family) (nonempty : name ≠ []) (plain : ∀ c ∈ ['\n', '@', '#'], c ∉ name)
    (first : ∀ inner more, block.body = inner ++ '\n' :: more →
      startsSibling (boundary family) (more ++ back) = false)
    (place : block.head ++ block.body = inner ++ '\n' :: (line ++ more)) :
    startsDecoration family line = false := by
  refine eq_false_of_ne_true fun starts => ?_
  rcases append_eq_append_cons place with ⟨rest, isHead, isBody⟩ | ⟨start, _, isBody⟩
  · obtain ⟨c, others, rfl, sign⟩ := sign_of_startsDecoration starts
    have header := declares.header
    rw [isHead] at header
    cases rest with
    | nil => exact header.not_ends decorated nonempty (plain _ (by simp))
    | cons d rest =>
      obtain ⟨rfl, _⟩ := List.cons.inj isBody
      have outside : c ∉ name := by
        rcases sign with rfl | rfl <;> exact plain _ (by simp)
      exact header.not_mem decorated sign outside (by simp)
  · have noSibling := first start _ isBody
    rw [List.append_assoc, startsSibling_of_startsDecoration decorated starts] at noSibling
    cases noSibling

/-- A removal takes out lines that start with an at sign, a line that declares the name and lines
that start no decoration. -/
theorem lines_of_afterDeclaration? {before : Option Char} {left : List (List Char)}
    (decorated : Decorated family) (nonempty : name ≠ []) (plain : ∀ c ∈ ['\n', '@', '#'], c ∉ name)
    (member : header ∈ headers family name) (start : before.all (· == '\n') = true)
    (inline : ∀ part ∈ line :: below, '\n' ∉ part) (inlineLeft : ∀ part ∈ left, '\n' ∉ part)
    (found : afterDeclaration? family header before (line ++ newLines below) =
      some (newLines left)) :
    ∃ run head more, line :: below = run ++ head :: (more ++ left) ∧
      (∀ part ∈ run, IsSign family part) ∧ Declaring family name head ∧
      ∀ part ∈ more, startsDecoration family part = false := by
  obtain ⟨block, split, declares, _, first⟩ := block_of_afterDeclaration? member found
  rw [Block.text_append] at split
  obtain ⟨run, head, behind, isLines, text, undecorated, signs⟩ :=
    declares.decorated.exists_lines inline split
  obtain ⟨front, more, isText, isMore⟩ := exists_lines_eq (block.head ++ block.body)
  rw [isLines] at inline
  have inlineText := notMem_of_mem_lines (block.head ++ block.body)
  rw [isText] at inlineText
  have inlineFront : ∀ part ∈ front :: (more ++ left), '\n' ∉ part := by
    rw [← List.cons_append]
    exact List.forall_mem_append.mpr ⟨inlineText, inlineLeft⟩
  have isFront : head :: behind = front :: (more ++ left) := by
    refine cons_eq_of_inline (List.forall_mem_append.mp inline).2 inlineFront ?_
    rw [← text, ← List.append_assoc, isMore, newLines_append, List.append_assoc]
  obtain ⟨rfl, rfl⟩ := List.cons.inj isFront
  have isSign : ∀ part ∈ run, IsSign family part := by
    intro part member
    refine ⟨declares.onlyPython.resolve_left fun empty => ?_, signs part member⟩
    rw [undecorated empty] at member
    cases member
  have declaring : Declaring family name head := by
    obtain ⟨header, member, reads⟩ := declares.header
    refine ⟨header, member, more ++ left, ?_⟩
    rw [← text]
    exact Pattern.matchesAt_iff.mpr ⟨_, _, rfl, reads.of_lineStart start⟩
  refine ⟨run, head, more, isLines, isSign, declaring, fun part member => ?_⟩
  obtain ⟨earlier, later, rfl⟩ := List.append_of_mem member
  have place : block.head ++ block.body =
      (head ++ newLines earlier) ++ '\n' :: (part ++ newLines later) := by
    rw [isMore, newLines_append, newLines_cons, List.append_assoc]
  exact declares.not_startsDecoration decorated nonempty plain first place

/-! A pass over the lines. -/

def Stays (family : LanguageFamily) (header : Pattern) (ls : List (List Char)) : Prop :=
  ∀ line below, ls = line :: below →
    afterDeclaration? family header (some '\n') (line ++ newLines below) = none

/-- A header that cannot be read from a decorator on cannot be read below it either. -/
theorem Stays.below_sign (stays : Stays family header (line :: below)) (sign : IsSign family line)
    (inline : '\n' ∉ line) : Stays family header below := by
  rintro next more rfl
  obtain ⟨isPython, first⟩ := sign
  obtain ⟨text, rfl⟩ := List.head?_eq_some_iff.mp first
  have here := stays _ _ rfl
  have outside : '\n' ∉ text := List.not_mem_of_not_mem_cons inline
  rw [afterDeclaration?_eq_none_iff, headerStart, if_pos isPython] at here ⊢
  rwa [newLines_cons, dropDecorators_lineBreak outside] at here

/-- A removal takes out lines that have nothing but their own decorators above them, and has nothing
above what it leaves. -/
theorem readAll_removed {run more : List (List Char)} {head : List Char}
    (signs : above.signs = []) (runs : ∀ part ∈ run, IsSign family part)
    (declaring : Declaring family name head)
    (plain : ∀ part ∈ more, startsDecoration family part = false)
    (decorated : PlainlyDecorated family (Declaring family name) above (run ++ head :: more)) :
    above = {} ∧ above.readAll family (run ++ head :: more) = {} := by
  have here := ((plainlyDecorated_append run (head :: more)).mp decorated).2.1 declaring
  have own : (above.readAll family run).signs = run := by
    rw [Above.readAll_signs runs, signs, List.nil_append]
  rw [own] at here
  refine ⟨?_, ?_⟩
  · have none : above.decorations = [] := by
      rcases above.decorations_readAll family run with all | fewer
      · exact List.append_left_eq_self.mp (all.symm.trans here.1)
      · rw [here.1] at fewer
        exact absurd fewer (Nat.lt_irrefl _)
    obtain ⟨decorations, _⟩ := above
    obtain rfl : decorations = [] := none
    obtain rfl : _ = [] := signs
    rfl
  · rw [Above.readAll, List.foldl_append, List.foldl_cons, ← Above.readAll, ← Above.readAll]
    refine Above.readAll_plain plain here.2 (.inr ?_)
    simp only [Above.read]
    exact if_neg (not_sign_of_not_startsDecoration declaring.not_startsDecoration)

/-- What a removal leaves of the outline is a part of it, and what is plainly decorated stays so. -/
def Spares (family : LanguageFamily) (above : Above) (before after : List (List Char)) : Prop :=
  (outlineFrom family above after).Sublist (outlineFrom family above before) ∧
    ∀ begins : List Char → Prop, ¬ begins [] → PlainlyDecorated family begins above before →
      PlainlyDecorated family begins above after

theorem Spares.refl (before : List (List Char)) : Spares family above before before :=
  ⟨.refl _, fun _ _ plain => plain⟩

theorem Spares.trans {before between after : List (List Char)}
    (first : Spares family above before between) (second : Spares family above between after) :
    Spares family above before after :=
  ⟨second.1.trans first.1, fun begins noBlank plain =>
    second.2 begins noBlank (first.2 begins noBlank plain)⟩

theorem Spares.cons {before after : List (List Char)} (line : List Char)
    (later : Spares family (above.read family line) before after) :
    Spares family above (line :: before) (line :: after) :=
  ⟨.append (.refl _) later.1, fun begins noBlank plain =>
    ⟨plain.1, later.2 begins noBlank plain.2⟩⟩

theorem Spares.cut {gone before after : List (List Char)}
    (nothing : ({} : Above).readAll family gone = {}) (later : Spares family {} before after) :
    Spares family {} (gone ++ before) ([] :: after) := by
  refine ⟨?_, fun begins noBlank plain => ?_⟩
  · rw [outlineFrom_append, nothing, outlineFrom, Above.read_empty]
    exact later.1.trans (List.sublist_append_right _ _)
  · rw [plainlyDecorated_append, nothing] at plain
    refine ⟨fun blank => absurd blank noBlank, ?_⟩
    rw [Above.read_empty]
    exact later.2 begins noBlank plain.2

theorem Pass.spares {before after : List (List Char)} (pass : Pass family header before after)
    (isDecorated : Decorated family) (nonempty : name ≠ [])
    (plainName : ∀ c ∈ ['\n', '@', '#'], c ∉ name) (member : header ∈ headers family name)
    (inline : ∀ line ∈ before, '\n' ∉ line) (free : above.signs = [] ∨ Stays family header before)
    (plain : PlainlyDecorated family (Declaring family name) above before) :
    Spares family above before after := by
  induction pass generalizing above with
  | done => exact .refl []
  | @keep line below left stays _ ih =>
    obtain ⟨here, inline⟩ := List.forall_mem_cons.mp inline
    refine .cons line (ih inline ?_ plain.2)
    by_cases sign : IsSign family line
    · have whole : Stays family header (line :: below) := by
        rintro _ _ same
        obtain ⟨rfl, rfl⟩ := List.cons.inj same
        exact stays
      exact .inr (whole.below_sign sign here)
    · exact .inl (if_neg sign)
  | @cut start line below rest left atStart found inlineRest _ ih =>
    have signs : above.signs = [] := by
      refine free.resolve_right fun stays => ?_
      have none := stays line below rfl
      cases start with
      | none => cases (afterDeclaration?_none_iff.mpr none).symm.trans found
      | some c =>
        obtain rfl : c = '\n' := by simpa using atStart
        cases none.symm.trans found
    obtain ⟨run, head, more, isLines, runs, declaring, noDecoration⟩ := lines_of_afterDeclaration?
      isDecorated nonempty plainName member atStart inline inlineRest found
    have split : line :: below = (run ++ head :: more) ++ rest := by
      rw [isLines, List.append_assoc, List.cons_append]
    rw [split] at plain ⊢
    obtain ⟨plainGone, plainRest⟩ := (plainlyDecorated_append _ _).mp plain
    obtain ⟨rfl, nothing⟩ := readAll_removed signs runs declaring noDecoration plainGone
    rw [nothing] at plainRest
    exact .cut nothing (ih inlineRest (.inl rfl) plainRest)

theorem removeAll_spares (isDecorated : Decorated family) (nonempty : name ≠ [])
    (plainName : ∀ c ∈ ['\n', '@', '#'], c ∉ name)
    (plain : PlainlyDecorated family (Declaring family name) {} (lines cs)) :
    Spares family {} (lines cs)
      (lines ((headers family name).foldl (removeDeclarations family) cs)) := by
  have passes : ∀ header ∈ headers family name, ∀ cs,
      PlainlyDecorated family (Declaring family name) {} (lines cs) →
      Spares family {} (lines cs) (lines (removeDeclarations family cs header)) :=
    fun header member cs => (pass_removeDeclarations member cs).spares isDecorated nonempty
      plainName member (notMem_of_mem_lines cs) (.inl rfl)
  generalize headers family name = patterns at passes
  induction patterns generalizing cs with
  | nil => exact .refl _
  | cons header patterns ih =>
    obtain ⟨first, others⟩ := List.forall_mem_cons.mp passes
    have here := first cs plain
    exact here.trans (ih (here.2 _ not_declaring_nil plain) others)

theorem stripSymbols_spares (isDecorated : Decorated family) {symbols : List String}
    (plainNames : ∀ symbol ∈ symbols, ∀ c ∈ ['\n', '@', '#'], c ∉ symbol.toList)
    (plain : ∀ symbol, Removes family symbols cs symbol →
      PlainlyDecorated family (Declaring family symbol.toList) {} (lines cs)) :
    Spares family {} (lines cs) (lines (stripSymbols family symbols cs)) := by
  induction symbols generalizing cs with
  | nil => exact .refl _
  | cons symbol symbols ih =>
    obtain ⟨plainName, plainNames⟩ := List.forall_mem_cons.mp plainNames
    have here : Spares family {} (lines cs) (lines (stripSymbol family cs symbol)) := by
      by_cases kept : symbol = "" ∨ isProtected family symbol.toList cs = true
      · rw [stripSymbol_eq_self_iff.mpr (kept.imp_right .inl)]
        exact .refl _
      · obtain ⟨nonempty, unprotected⟩ := not_or.mp kept
        have removed := eq_false_of_ne_true unprotected
        have listed : Removes family (symbol :: symbols) cs symbol :=
          ⟨[], symbols, rfl, nonempty, removed⟩
        have isNonempty : symbol.toList ≠ [] := by simpa using nonempty
        rw [stripSymbol_of_removed nonempty removed]
        exact removeAll_spares isDecorated isNonempty plainName (plain symbol listed)
    refine here.trans (ih plainNames fun later removes => ?_)
    obtain ⟨earlier, others, rfl, turn⟩ := removes
    exact here.2 _ not_declaring_nil (plain later ⟨symbol :: earlier, others, rfl, turn⟩)

end

/-- A declaration that stays has exactly the decorations that it had, if those of the declarations
that go are lines with an at sign right above their headers, and nothing else. -/
theorem strip_keeps_decorations (content : String) (symbols : List String)
    (family : LanguageFamily) (isDecorated : Decorated family)
    (plainNames : ∀ symbol ∈ symbols, ∀ c ∈ ['\n', '@', '#'], c ∉ symbol.toList)
    (plain : ∀ symbol, Removes family symbols content.toList symbol →
      PlainlyDecorated family (Declaring family symbol.toList) {} (lines content.toList)) :
    (outline family (stripUnreachable content symbols family).value.toList).Sublist
      (outline family content.toList) := by
  rw [value_stripUnreachable]
  split
  · exact .refl _
  · rw [String.toList_ofList]
    exact (stripSymbols_spares isDecorated plainNames plain).1

theorem strip_keeps_decorations_stacked :
    let content := "@a\n@b(1)\ndef s():\n  pass\n\n@cache(\n  size=1)\ndef t():\n  pass\n"
    Decorated .python ∧ (∀ symbol ∈ ["s"], ∀ c ∈ ['\n', '@', '#'], c ∉ symbol.toList) ∧
      (∀ symbol, Removes .python ["s"] content.toList symbol →
        PlainlyDecorated .python (Declaring .python symbol.toList) {} (lines content.toList)) ∧
      (outline .python (stripUnreachable content ["s"] .python).value.toList).Sublist
        (outline .python content.toList) := by
  intro content
  have plainNames : ∀ symbol ∈ ["s"], ∀ c ∈ ['\n', '@', '#'], c ∉ symbol.toList := by simp
  have split : lines content.toList = ["@a".toList, "@b(1)".toList, "def s():".toList,
      "  pass".toList, [], "@cache(".toList, "  size=1)".toList, "def t():".toList,
      "  pass".toList, []] := by decide +kernel
  have isName : IsName .python "s".toList :=
    ⟨by simp, by simp [isNameChar, isWord], by simp [keywords]⟩
  have solid : ∀ line, line.head?.any isWord = false → ¬ Declaring .python "s".toList line := by
    rintro line noWord declaring
    obtain ⟨c, more, rfl, isWord⟩ := declaring.exists_cons
    exact Bool.false_ne_true (noWord.symm.trans isWord)
  have other : ¬ Declaring .python "s".toList "def t():".toList := by
    rintro ⟨header, member, below, found⟩
    obtain ⟨taken, rest, text, reads⟩ := Pattern.matchesAt_iff.mp found
    obtain ⟨behind, leads, _⟩ := ReadsHeader.leadsTo ⟨header, member, reads⟩ isName
    have name := leads.fromName isName
    have key : "def t():".toList ++ newLines below =
        "def".toList ++ ' ' :: 't' :: ("():".toList ++ newLines below) := by simp
    have starts : StartsName .python ('t' :: ("():".toList ++ newLines below)) :=
      ⟨(by decide : isNameChar .python 't' = true), by simp [keywords, isNameChar, isWord]⟩
    rw [← text, key, fromName_keyword (by decide) (by decide)] at name
    cases (fromName_lead .nil starts).symm.trans name
  have plain : ∀ symbol, Removes .python ["s"] content.toList symbol →
      PlainlyDecorated .python (Declaring .python symbol.toList) {} (lines content.toList) := by
    rintro symbol ⟨earlier, later, same, _⟩
    obtain rfl : symbol = "s" := by
      have member : symbol ∈ ["s"] := same ▸ List.mem_append_right _ List.mem_cons_self
      exact List.mem_singleton.mp member
    rw [split]
    refine ⟨fun h => absurd h (solid _ ?_), fun h => absurd h (solid _ ?_), fun _ => ?_,
      fun h => absurd h (solid _ ?_), fun h => absurd h (solid _ ?_),
      fun h => absurd h (solid _ ?_), fun h => absurd h (solid _ ?_), fun h => absurd h other,
      fun h => absurd h (solid _ ?_), fun h => absurd h (solid _ ?_), trivial⟩
    all_goals decide +kernel
  exact ⟨.inl rfl, plainNames, plain, strip_keeps_decorations content ["s"] .python (.inl rfl)
    plainNames plain⟩

/-- Of a decorator over two lines, and of an attribute, nothing goes with the declaration below it,
so they decorate the next one. -/
theorem strip_moves_decorations :
    let cached := "@cache(\n    size=1)\ndef s():\n    pass\n\ndef t():\n    pass\n"
    let inlined := "#[inline]\nfn s() \x7b\x7d\n\nfn t() \x7b\x7d\n"
    ¬ (outline .python (stripUnreachable cached ["s"] .python).value.toList).Sublist
        (outline .python cached.toList) ∧
      ¬ (outline .rust (stripUnreachable inlined ["s"] .rust).value.toList).Sublist
        (outline .rust inlined.toList) := by
  decide +kernel

end PromptPack.Prune
