import PromptPack.Text.LowerCase
import PromptPack.Text.Removal
import PromptPack.Transform.Whitespace

/-! Reducing markdown: badges, HTML comments, block elements and tags are taken out, each in a pass
of its own, then blank lines, headings and quotes. -/

namespace PromptPack.Transform

open Text

/-- What follows a badge behind `[`, all of it on one line: `![…](…)](…)`. -/
def afterBadge? (cs : List Char) : Option (List Char) := do
  let inner ← after? "![".toList cs
  let line := inner.takeWhile (· != '\n')
  let (_, image) ← breakOn? "](".toList line
  let (_, link) ← breakOn? ")](".toList image
  let (_, rest) ← breakOn? [')'] link
  return inner.drop (line.length - rest.length)

theorem suffix_of_afterBadge? {cs rest : List Char} (h : afterBadge? cs = some rest) :
    rest <:+ cs := by
  simp only [afterBadge?, Option.bind_eq_bind, Option.bind_eq_some_iff, Option.pure_def,
    Option.some.injEq, Prod.exists] at h
  obtain ⟨inner, opened, _, _, _, _, _, _, _, _, _, rfl⟩ := h
  exact (List.drop_suffix _ _).trans (suffix_of_after? opened)

def badges : Removal := fun c cs =>
  if c = '[' then
    match h : afterBadge? cs with
    | some rest => some ⟨rest, suffix_of_afterBadge? h⟩
    | none => none
  else none

def htmlComments : Removal := .enclosed '<' "!--".toList "-->".toList

/-- Letter case does not count in names; neither do the dotless i and the long s. -/
def isLetter (letter c : Char) : Bool :=
  lowerChar c == letter || (letter == 'i' && c.toNat == 0x131) || (letter == 's' && c.toNat == 0x17F)

def afterName? : List Char → List Char → Option (List Char)
  | [], cs => some cs
  | _ :: _, [] => none
  | letter :: letters, c :: cs => if isLetter letter c then afterName? letters cs else none

theorem suffix_of_afterName? {name cs rest : List Char} (h : afterName? name cs = some rest) :
    rest <:+ cs := by
  induction name generalizing cs with
  | nil => simp_all [afterName?]
  | cons letter letters ih =>
    cases cs with
    | nil => simp [afterName?] at h
    | cons c cs =>
      simp only [afterName?] at h
      split at h
      · exact (ih h).trans (List.suffix_cons c cs)
      · simp at h

def afterTag? (cs : List Char) : Option (List Char) :=
  match cs.dropWhile (· != '>') with
  | [] => none
  | _ :: rest => some rest

theorem suffix_of_afterTag? {cs rest : List Char} (h : afterTag? cs = some rest) :
    rest <:+ cs := by
  unfold afterTag? at h
  split at h
  · simp at h
  · rename_i c tail found
    obtain rfl := by simpa using h
    exact (found ▸ List.suffix_cons c tail).trans (List.dropWhile_suffix _)

def afterClosingTag? (name cs : List Char) : Option (List Char) := do
  let inner ← after? "</".toList cs
  if (inner.take name.length).map lowerChar = name.map lowerChar then
    after? ['>'] (inner.drop name.length)
  else none

def afterElement? (name : List Char) : List Char → Option (List Char)
  | [] => none
  | c :: cs =>
    match afterClosingTag? name (c :: cs) with
    | some rest => some rest
    | none => afterElement? name cs

theorem suffix_of_afterElement? {name cs rest : List Char}
    (h : afterElement? name cs = some rest) : rest <:+ cs := by
  induction cs with
  | nil => simp [afterElement?] at h
  | cons c cs ih =>
    unfold afterElement? at h
    split at h
    · rename_i found closed
      obtain rfl := by simpa using h
      simp only [afterClosingTag?, Option.bind_eq_bind, Option.bind_eq_some_iff] at closed
      obtain ⟨inner, opened, closed⟩ := closed
      split at closed
      · exact (suffix_of_after? closed).trans
          ((List.drop_suffix _ _).trans (suffix_of_after? opened))
      · simp at closed
    · exact (ih h).trans (List.suffix_cons c cs)

/-- What follows the element whose opening tag is behind the angle bracket, if it has this name. The
closing tag repeats the name as it is written in the opening tag. -/
def afterBlock? (cs name : List Char) : Option { rest : List Char // rest <:+ cs } :=
  match named : afterName? name cs with
  | none => none
  | some attributes =>
    match tagged : afterTag? attributes with
    | none => none
    | some inner =>
      match closed : afterElement? (cs.take name.length) inner with
      | none => none
      | some rest =>
        some ⟨rest, (suffix_of_afterElement? closed).trans
          ((suffix_of_afterTag? tagged).trans (suffix_of_afterName? named))⟩

/-- Names are tried in this order. -/
def blockNames : List (List Char) :=
  ["div", "details", "summary", "table", "thead", "tbody", "tr", "td", "th"].map String.toList

def blockElements : Removal := fun c cs =>
  if c = '<' then blockNames.findSome? (afterBlock? cs) else none

def voidNames : List (List Char) := ["img", "br", "hr"].map String.toList

def afterVoid? (cs name : List Char) : Option { rest : List Char // rest <:+ cs } :=
  match named : afterName? name cs with
  | none => none
  | some attributes =>
    match tagged : afterTag? attributes with
    | none => none
    | some rest =>
      some ⟨rest, (suffix_of_afterTag? tagged).trans (suffix_of_afterName? named)⟩

def voidElements : Removal := fun c cs =>
  if c = '<' then voidNames.findSome? (afterVoid? cs) else none

/-- Anything between angle brackets, unless nothing is between them. -/
def tags : Removal := fun c cs =>
  if c = '<' && cs.head?.any (· != '>') then
    match h : afterTag? cs with
    | some rest => some ⟨rest, suffix_of_afterTag? h⟩
    | none => none
  else none

def isHeading (line : List Char) : Bool :=
  let level := (line.takeWhile (· == '#')).length
  0 < level && level ≤ 6 && (line.drop level).head?.any fun c => c == ' ' || c == '\t'

def isQuote (line : List Char) : Bool := line.head? == some '>'

def clearLines (p : List Char → Bool) (cs : List Char) : List Char :=
  unlines ((lines cs).map fun line => if p line then [] else line)

def stripMarkup (cs : List Char) : List Char :=
  tags.apply (voidElements.apply (blockElements.apply (htmlComments.apply (badges.apply cs))))

def minifyMarkdown (stripHeadings stripQuotes : Bool) (cs : List Char) : List Char :=
  let cs := collapseBreaks (stripMarkup cs)
  let cs := if stripHeadings then clearLines isHeading cs else cs
  let cs := if stripQuotes then clearLines isQuote cs else cs
  trim cs

end PromptPack.Transform
