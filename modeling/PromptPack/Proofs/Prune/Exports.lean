import PromptPack.Proofs.Prune.Siblings
import PromptPack.Proofs.Text.Gaps

/-! Lists of public names. TypeScript lists them between the braces of an export, Python between the
brackets of an assignment, and a name that is read there is never removed. A name without word
boundaries at its ends is not read, nor is one behind a closing bracket. Main statements:
`strip_keeps_members`, `strip_keeps_listed`. -/

namespace PromptPack.Prune

open Text
open Text.Pattern (word sequence)

/-! Export lists of TypeScript. -/

/-- The name stands in the text with no character of names next to it. -/
def Mentions (family : LanguageFamily) (name text : List Char) : Prop :=
  ∃ before after, text = before ++ (name ++ after) ∧
    before.getLast?.any (isNameChar family) = false ∧ after.head?.any (isNameChar family) = false

/-- An export list as it is written, with the white space in front of it. -/
structure MemberList where
  indent : List Char
  spacing : List Char
  members : List Char

def MemberList.text (list : MemberList) : List Char :=
  list.indent ++ ("export".toList ++ (list.spacing ++ ('\x7b' :: (list.members ++ ['\x7d']))))

structure MemberList.WellFormed (list : MemberList) : Prop where
  indent : Blank list.indent
  spacing : Blank list.spacing
  inside : '\x7d' ∉ list.members

section

variable {family : LanguageFamily} {front back name cs : List Char}

theorem EndsLine.all_getLast? (h : EndsLine front) : front.getLast?.all (· == '\n') = true := by
  rcases h with rfl | ⟨line, rfl⟩
  · rfl
  · rw [List.getLast?_concat]
    rfl

theorem any_isWord_eq_false {c : Option Char} (h : c.any (isNameChar family) = false) :
    c.any isWord = false := by
  cases c with
  | none => rfl
  | some c => exact eq_false_of_ne_true fun isWord =>
      Bool.false_ne_true (h.symm.trans (isNameChar_of_isWord isWord))

theorem isProtected_of_mentions {list : MemberList} (wellFormed : list.WellFormed)
    (lineStart : EndsLine front) (member : Mentions .typescript name list.members)
    (wordStart : name.head?.any isWord = true) (wordEnd : name.getLast?.any isWord = true) :
    isProtected .typescript name (front ++ (list.text ++ back)) = true := by
  obtain ⟨indent, spacing, members⟩ := list
  obtain ⟨before, after, rfl, free, stop⟩ := member
  obtain ⟨blankIndent, blankSpacing, inside⟩ := wellFormed
  simp only [List.mem_append, not_or] at inside
  have nonempty : name ≠ [] := by
    rintro rfl
    cases wordStart
  have run : ∀ part : List Char, '\x7d' ∉ part → ∀ c ∈ part, notBrace c = true :=
    fun part outside c member => bne_iff_ne.mpr (ne_of_mem_of_not_mem member outside)
  have start : isWordEdge (lastOf (some '\x7b') before)
      (name ++ (after ++ ['\x7d'] ++ back)).head? = true := by
    have behind : (lastOf (some '\x7b') before).any isWord = false := by
      by_cases empty : before = []
      · rw [empty]
        decide
      · rw [lastOf_of_ne_nil empty]
        exact any_isWord_eq_false free
    rw [List.head?_append_of_ne_nil _ nonempty, isWordEdge, behind, wordStart]
    rfl
  have stops : ∀ last, isWordEdge (lastOf last name) (after ++ ['\x7d'] ++ back).head? = true := by
    intro last
    have next : (after ++ ['\x7d'] ++ back).head?.any isWord = false := by
      cases after with
      | nil => exact (by decide : isWord '\x7d' = false)
      | cons c after => exact any_isWord_eq_false stop
    rw [isWordEdge, next, lastOf_of_ne_nil nonempty, wordEnd]
    rfl
  have found : (line [word "export", gap, word "\x7b", .run notBrace, .wordEdge, .literal name,
      .wordEdge, .run notBrace, word "\x7d"]).foundIn (front ++
        ((MemberList.mk indent spacing (before ++ (name ++ after))).text ++ back)) = true := by
    refine Pattern.foundIn_iff.mpr ⟨front, _, back, rfl, [], _, rfl,
      ⟨rfl, lineStart.all_getLast?⟩, indent, _, rfl, blankIndent, _, _, rfl, rfl, spacing, _, rfl,
      blankSpacing, ['\x7b'], _, rfl, rfl, before, name ++ (after ++ ['\x7d']), by simp,
      run before inside.1, [], _, rfl, ⟨rfl, ?_⟩, name, after ++ ['\x7d'], rfl, rfl, [], _, rfl,
      ⟨rfl, ?_⟩, after, _, rfl, run after inside.2.2, rfl⟩
    · simpa using start
    · exact stops _
  unfold isProtected exportLines
  simp [found]

theorem strip_of_isProtected {content symbol : String}
    (h : isProtected family symbol.toList content.toList = true) :
    (stripUnreachable content [symbol] family).value = content := by
  have same : stripSymbols family [symbol] content.toList = content.toList :=
    stripSymbol_eq_self_iff.mpr (.inr (.inl h))
  rw [value_stripUnreachable, same, String.ofList_toList, ite_self]

/-- A member of an export list is never removed, if it starts and ends as a word does. -/
theorem strip_keeps_members (content symbol : String) (front : List Char) (list : MemberList)
    (back : List Char) (split : content.toList = front ++ (list.text ++ back))
    (lineStart : EndsLine front) (wellFormed : list.WellFormed)
    (member : Mentions .typescript symbol.toList list.members)
    (wordStart : symbol.toList.head?.any isWord = true)
    (wordEnd : symbol.toList.getLast?.any isWord = true) :
    (stripUnreachable content [symbol] .typescript).value = content := by
  refine strip_of_isProtected ?_
  rw [split]
  exact isProtected_of_mentions wellFormed lineStart member wordStart wordEnd

theorem strip_keeps_members_aliased :
    let content :=
      "function low$er() \x7b\x7d\n\n  export \x7b\n  other,\n  low$er as upper,\n\x7d\n"
    let list : MemberList := ⟨"  ".toList, " ".toList, "\n  other,\n  low$er as upper,\n".toList⟩
    content.toList = "function low$er() \x7b\x7d\n\n".toList ++ (list.text ++ ['\n']) ∧
      list.WellFormed ∧ Mentions .typescript "low$er".toList list.members ∧
      (stripUnreachable content ["low$er"] .typescript).value = content := by
  intro content list
  have split : content.toList =
      "function low$er() \x7b\x7d\n\n".toList ++ (list.text ++ ['\n']) := by
    simp [content, list, MemberList.text]
  have wellFormed : list.WellFormed :=
    ⟨by simp [list, Blank, isBlank], by simp [list, Blank, isBlank], by simp [list]⟩
  have member : Mentions .typescript "low$er".toList list.members :=
    ⟨"\n  other,\n  ".toList, " as upper,\n".toList, by simp [list], by decide +kernel,
      by decide +kernel⟩
  exact ⟨split, wellFormed, member, strip_keeps_members content "low$er" _ list _ split
    (.inr ⟨"function low$er() \x7b\x7d\n".toList, by simp⟩) wellFormed member (by decide +kernel)
    (by decide +kernel)⟩

/-- There is no word boundary between white space and a dollar sign, so a member that starts or ends
with one is removed. -/
theorem strip_drops_members :
    let list : List Char → MemberList := fun name => ⟨[], [' '], ' ' :: (name ++ [' '])⟩
    let text : List Char → List Char := fun name =>
      "function ".toList ++ (name ++ ("() \x7b\x7d\n".toList ++ ((list name).text ++ ['\n'])))
    ∀ name ∈ [['$', 's'], ['s', '$']], (list name).WellFormed ∧
      Mentions .typescript name (list name).members ∧
      (stripUnreachable (String.ofList (text name)) [String.ofList name] .typescript).value ≠
        String.ofList (text name) := by
  intro list text name member
  have wellFormed : ∀ name ∈ [['$', 's'], ['s', '$']], (list name).WellFormed := by
    intro name member
    refine ⟨blank_nil, by simp [list, Blank, isBlank], ?_⟩
    have free : ∀ name ∈ [['$', 's'], ['s', '$']], '\x7d' ∉ name := by decide
    simp [list, free name member]
  have removed : ∀ name ∈ [['$', 's'], ['s', '$']],
      (stripUnreachable (String.ofList (text name)) [String.ofList name] .typescript).value ≠
        String.ofList (text name) := by decide +kernel
  exact ⟨wellFormed name member, ⟨[' '], [' '], rfl, by decide, by decide⟩, removed name member⟩

end

/-! Python's list of public names. -/

structure Literal where
  mark : List Char
  quote : Char
  long : Bool
  name : List Char

namespace Literal

def fence (literal : Literal) : List Char :=
  List.replicate (if literal.long then 3 else 1) literal.quote

def text (literal : Literal) : List Char :=
  literal.mark ++ (literal.fence ++ (literal.name ++ literal.fence))

structure WellFormed (literal : Literal) : Prop where
  mark : literal.mark ∈ [[], ['r'], ['R'], ['u'], ['U']]
  quote : literal.quote = '"' ∨ literal.quote = '\''
  plain : ∀ c ∈ [literal.quote, '\\', '\n'], c ∉ literal.name

instance (literal : Literal) : Decidable literal.WellFormed :=
  have : Decidable (∀ c ∈ [literal.quote, '\\', '\n'], c ∉ literal.name) :=
    List.decidableBAll _ _
  decidable_of_iff (literal.mark ∈ [[], ['r'], ['R'], ['u'], ['U']] ∧
      (literal.quote = '"' ∨ literal.quote = '\'') ∧
      ∀ c ∈ [literal.quote, '\\', '\n'], c ∉ literal.name)
    ⟨fun ⟨mark, quote, plain⟩ => ⟨mark, quote, plain⟩,
      fun ⟨mark, quote, plain⟩ => ⟨mark, quote, plain⟩⟩

end Literal

inductive ListPart where
  | element (literal : Literal)
  | comment (text : List Char)
  | separator (c : Char)

namespace ListPart

def text : ListPart → List Char
  | .element literal => literal.text
  | .comment text => '#' :: (text ++ ['\n'])
  | .separator c => [c]

def WellFormed : ListPart → Prop
  | .element literal => literal.WellFormed
  | .comment text => '\n' ∉ text
  | .separator c => isBlank c = true ∨ c = ','

instance : (part : ListPart) → Decidable part.WellFormed
  | .element literal => inferInstanceAs (Decidable literal.WellFormed)
  | .comment text => inferInstanceAs (Decidable ('\n' ∉ text))
  | .separator c => inferInstanceAs (Decidable (isBlank c = true ∨ c = ','))

end ListPart

/-- An assignment to the list of public names, or an addition to it. -/
structure NameList where
  gap : List Char
  sign : List Char
  spacing : List Char
  opener : Char
  parts : List ListPart
  closer : Char

namespace NameList

def inside (list : NameList) : List Char := list.parts.flatMap ListPart.text

def text (list : NameList) : List Char :=
  "__all__".toList ++ (list.gap ++ (list.sign ++
    (list.spacing ++ list.opener :: (list.inside ++ [list.closer]))))

structure WellFormed (list : NameList) : Prop where
  gap : Blank list.gap
  sign : list.sign = ['='] ∨ list.sign = ['+', '=']
  spacing : Blank list.spacing
  brackets : (list.opener = '[' ∧ list.closer = ']') ∨ (list.opener = '(' ∧ list.closer = ')')
  parts : ∀ part ∈ list.parts, part.WellFormed

/-- The literal is an element of the list, and no closing bracket stands in front of its end, be it
in a comment. -/
def Reaches (list : NameList) (literal : Literal) : Prop :=
  ∃ earlier later, list.parts = earlier ++ .element literal :: later ∧
    ∀ c ∈ earlier.flatMap ListPart.text ++ literal.name, isCloser c = false

end NameList

section

variable {front back name cs names : List Char} {list : NameList} {literal : Literal}
  {atLineStart : Bool}

theorem takeWhile_closed {inside : List Char} {c : Char} (closes : isCloser c = true)
    (cs : List Char) : (inside ++ c :: cs).takeWhile (!isCloser ·) =
      inside.takeWhile (!isCloser ·) := by
  induction inside with
  | nil => rw [List.nil_append, List.takeWhile_cons_of_neg (by simp [closes]), List.takeWhile_nil]
  | cons d inside ih => rw [List.cons_append, List.takeWhile_cons, List.takeWhile_cons, ih]

theorem exportList?_sign {sign gap spacing inside tail : List Char} {opener closer : Char}
    (isSign : sign = ['='] ∨ sign = ['+', '=']) (blankGap : Blank gap)
    (blankSpacing : Blank spacing) (isOpener : opener = '[' ∨ opener = '(')
    (closes : isCloser closer = true) :
    exportList? ("__all__".toList ++ (gap ++ (sign ++
      (spacing ++ opener :: (inside ++ closer :: tail))))) =
      some (inside.takeWhile (!isCloser ·)) := by
  have solid : isBlank opener = false := by
    rcases isOpener with rfl | rfl <;> decide
  have bracket := trimStart_append blankSpacing solid (inside ++ closer :: tail)
  have closed : ((opener = '[' || opener = '(') && (inside ++ closer :: tail).any isCloser) =
      true := by
    simp [isOpener, closes]
  generalize spacing ++ opener :: (inside ++ closer :: tail) = members at bracket ⊢
  have start : trimStart (gap ++ (sign ++ members)) = sign ++ members := by
    rcases isSign with rfl | rfl
    · exact trimStart_append blankGap rfl members
    · exact trimStart_append blankGap rfl ('=' :: members)
  unfold exportList?
  rw [after?_eq_some.mpr rfl, Option.bind_eq_bind, Option.bind_some, start]
  rcases isSign with rfl | rfl
  all_goals
    change Option.bind (some members) _ = _
    rw [Option.bind_some, bracket]
    dsimp only
    rw [if_pos closed, takeWhile_closed closes]

/-- Of a list the text up to the first closing bracket is read, whatever that bracket belongs to. -/
theorem exportList?_text (wellFormed : list.WellFormed) (back : List Char) :
    exportList? (list.text ++ back) = some (list.inside.takeWhile (!isCloser ·)) := by
  have closes : isCloser list.closer = true := by
    rcases wellFormed.brackets with ⟨_, closer⟩ | ⟨_, closer⟩ <;> rw [closer] <;> decide
  have text : ∀ key : List Char, key ++ (list.gap ++ (list.sign ++
      (list.spacing ++ list.opener :: (list.inside ++ [list.closer])))) ++ back =
        key ++ (list.gap ++ (list.sign ++
          (list.spacing ++ list.opener :: (list.inside ++ list.closer :: back)))) := by
    intro key
    simp only [List.append_assoc, List.cons_append, List.nil_append]
  exact (congrArg exportList? (text _)).trans (exportList?_sign wellFormed.sign wellFormed.gap
    wellFormed.spacing (wellFormed.brackets.imp And.left And.left) closes)

theorem listedFrom_append (start : front = [] → atLineStart = true) (lineStart : EndsLine front)
    (members : exportList? cs = some names) (found : (quotedName name).foundIn names = true) :
    listedFrom name atLineStart (front ++ cs) = true := by
  induction front generalizing atLineStart with
  | nil =>
    cases cs with
    | nil => cases members
    | cons c cs =>
      rw [List.nil_append, listedFrom, start rfl, members, Option.any_some, found]
      rfl
  | cons c front ih =>
    have first : front = [] → (c == '\n') = true := by
      rintro rfl
      exact lineStart.all_getLast?
    have rest : EndsLine ([c] ++ front) := lineStart
    rw [List.cons_append, listedFrom, ih first rest.of_append, Bool.or_true]

theorem Literal.exists_fence (literal : Literal) : ∃ quotes,
    literal.fence = quotes ++ [literal.quote] ∧ literal.fence = literal.quote :: quotes := by
  unfold fence
  cases literal.long
  · exact ⟨[], rfl, rfl⟩
  · exact ⟨[literal.quote, literal.quote], rfl, rfl⟩

/-- Only in its name can a literal have a closing bracket. -/
theorem Literal.WellFormed.open (wellFormed : literal.WellFormed)
    (opened : ∀ c ∈ literal.name, isCloser c = false) : ∀ c ∈ literal.text, isCloser c = false := by
  have mark : ∀ c ∈ literal.mark, isCloser c = false := by
    have all : ∀ mark ∈ [[], ['r'], ['R'], ['u'], ['U']], ∀ c ∈ mark, isCloser c = false := by
      simp [isCloser]
    exact all _ wellFormed.mark
  have fence : ∀ c ∈ literal.fence, isCloser c = false := by
    intro c member
    rw [(List.mem_replicate.mp member).2]
    rcases wellFormed.quote with quote | quote <;> rw [quote] <;> decide
  intro c member
  simp only [Literal.text, List.mem_append] at member
  rcases member with member | member | member | member
  · exact mark c member
  · exact fence c member
  · exact opened c member
  · exact fence c member

theorem NameList.Reaches.foundIn (reaches : list.Reaches literal) (wellFormed : list.WellFormed) :
    (quotedName literal.name).foundIn (list.inside.takeWhile (!isCloser ·)) = true := by
  obtain ⟨earlier, later, parts, opened⟩ := reaches
  have wellSpelled : literal.WellFormed := wellFormed.parts (.element literal) (by simp [parts])
  obtain ⟨first, others⟩ := List.forall_mem_append.mp opened
  have reached : ∀ c ∈ earlier.flatMap ListPart.text ++ literal.text, (!isCloser c) = true := by
    intro c member
    rcases List.mem_append.mp member with member | member
    · rw [first c member]
      rfl
    · rw [wellSpelled.open others c member]
      rfl
  have inside : list.inside =
      earlier.flatMap ListPart.text ++ literal.text ++ later.flatMap ListPart.text := by
    rw [NameList.inside, parts, List.flatMap_append, List.flatMap_cons, List.append_assoc]
    rfl
  have quote : "'\"".toList.contains literal.quote = true := by
    rcases wellSpelled.quote with quote | quote <;> rw [quote] <;> decide
  obtain ⟨quotes, ends, starts⟩ := literal.exists_fence
  have text : literal.text = literal.mark ++ (quotes ++ [literal.quote] ++
      (literal.name ++ literal.quote :: quotes)) := by
    rw [← ends, ← starts]
    rfl
  rw [inside, List.takeWhile_append_of_pos reached, text]
  refine Pattern.foundIn_iff.mpr ⟨earlier.flatMap ListPart.text ++ literal.mark ++ quotes,
    literal.quote :: (literal.name ++ [literal.quote]),
    quotes ++ (later.flatMap ListPart.text).takeWhile (!isCloser ·), by simp,
    [literal.quote], literal.name ++ [literal.quote], rfl, ⟨literal.quote, quote, rfl⟩,
    literal.name, [literal.quote], rfl, rfl, literal.quote, quote, rfl⟩

/-- A name that a list spells in front of its first closing bracket is protected. -/
theorem strip_keeps_listed (content : String) (front : List Char) (list : NameList)
    (back : List Char) (literal : Literal) (split : content.toList = front ++ (list.text ++ back))
    (lineStart : EndsLine front) (wellFormed : list.WellFormed) (reaches : list.Reaches literal) :
    isProtected .python literal.name content.toList = true ∧
      (stripUnreachable content [String.ofList literal.name] .python).value = content := by
  have protects : isProtected .python literal.name content.toList = true := by
    rw [split]
    exact listedFrom_append (fun _ => rfl) lineStart (exportList?_text wellFormed back)
      (reaches.foundIn wellFormed)
  refine ⟨protects, strip_of_isProtected ?_⟩
  rw [String.toList_ofList]
  exact protects

theorem strip_keeps_listed_commented :
    let content := "def b():\n    pass\n\n__all__ += (\n  'a', # first\n  \"b\",\n)\n"
    let list : NameList := ⟨[' '], ['+', '='], [' '], '(', [.separator '\n', .separator ' ',
      .separator ' ', .element ⟨[], '\'', false, ['a']⟩, .separator ',', .separator ' ',
      .comment " first".toList, .separator ' ', .separator ' ', .element ⟨[], '"', false, ['b']⟩,
      .separator ',', .separator '\n'], ')'⟩
    content.toList = "def b():\n    pass\n\n".toList ++ (list.text ++ ['\n']) ∧ list.WellFormed ∧
      list.Reaches ⟨[], '"', false, ['b']⟩ ∧
      (stripUnreachable content ["b"] .python).value = content := by
  intro content list
  have split : content.toList = "def b():\n    pass\n\n".toList ++ (list.text ++ ['\n']) := by
    decide +kernel
  have wellFormed : list.WellFormed := by
    exact ⟨by simp [list, Blank, isBlank], .inr rfl, by simp [list, Blank, isBlank],
      .inr ⟨rfl, rfl⟩, by decide +kernel⟩
  have reaches : list.Reaches ⟨[], '"', false, ['b']⟩ :=
    ⟨list.parts.take 9, list.parts.drop 10, rfl, by
      simp [list, ListPart.text, Literal.text, Literal.fence, isCloser]⟩
  exact ⟨split, wellFormed, reaches, (strip_keeps_listed content _ list _ _ split
    (.inr ⟨"def b():\n    pass\n".toList, by simp⟩) wellFormed reaches).2⟩

theorem strip_drops_listed :
    let content := "__all__ = [\n  'a', # [1]\n  'b',\n]\n\ndef b():\n    pass\n"
    let list : NameList := ⟨[' '], ['='], [' '], '[', [.separator '\n', .separator ' ',
      .separator ' ', .element ⟨[], '\'', false, ['a']⟩, .separator ',', .separator ' ',
      .comment " [1]".toList, .separator ' ', .separator ' ', .element ⟨[], '\'', false, ['b']⟩,
      .separator ',', .separator '\n'], ']'⟩
    content.toList = list.text ++ "\n\ndef b():\n    pass\n".toList ∧ list.WellFormed ∧
      (∃ earlier later, list.parts = earlier ++ .element ⟨[], '\'', false, ['b']⟩ :: later) ∧
      isProtected .python ['b'] content.toList = false ∧
      (stripUnreachable content ["b"] .python).value ≠ content := by
  intro content list
  refine ⟨by decide +kernel, ⟨by simp [list, Blank, isBlank], .inl rfl,
    by simp [list, Blank, isBlank], .inl ⟨rfl, rfl⟩, by decide +kernel⟩,
    ⟨list.parts.take 9, list.parts.drop 10, rfl⟩, by decide +kernel, by decide +kernel⟩

end

end PromptPack.Prune
