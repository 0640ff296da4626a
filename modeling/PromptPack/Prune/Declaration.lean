import PromptPack.Prune.Language
import PromptPack.Text.Blank
import PromptPack.Text.Pattern
import PromptPack.Text.Scan

/-! Top-level declarations by their lines. A declaration starts with its header at the start of a
line and runs to the next line that starts a sibling, or to the end of the text. Removing one keeps
the line break in front of it. -/

namespace PromptPack.Prune

open Text
open Text.Pattern (word oneOrMore sequence anyOf)

def blanks : Pattern := oneOrMore isBlank
def gap : Pattern := .run isBlank

def oneOf (members : String) : Pattern := .one fun c => members.toList.contains c

/-- Words with blanks between them, and blanks behind the last. -/
def phrase (words : List String) : Pattern :=
  sequence (words.flatMap fun w => [word w, blanks])

def functionGap : Pattern := .alt (sequence [gap, word "*", gap]) blanks

def boundary : LanguageFamily → Pattern
  | .typescript => anyOf [word "export", sequence [word "async", blanks, word "function"],
      word "function", word "const", word "let", word "var", word "class", word "interface",
      word "type", word "enum", word "//", word "/*"]
  | .python => anyOf [.seq (word "def") (.one isBlank),
      sequence [word "async", blanks, word "def", .one isBlank],
      .seq (word "class") (.one isBlank), word "@"]
  | .rust => anyOf [word "pub", word "fn", sequence [word "async", blanks, word "fn"],
      word "struct", word "impl", word "enum", word "trait", word "use", word "mod", word "#[",
      word "//", word "/*"]
  | .go => anyOf (["func", "type", "var", "const", "import", "package"].map fun w =>
      .seq (word w) (.one isBlank))
  | .unsupported => anyOf []

/-- The headers that declare a name, each a pass of its own. -/
def headers (family : LanguageFamily) (name : List Char) : List Pattern :=
  match family with
  | .typescript =>
    [ sequence [.optional (phrase ["async"]), word "function", functionGap, .literal name, gap,
        oneOf "(<"],
      sequence [anyOf [word "const", word "let", word "var"], blanks, .literal name, gap,
        oneOf "=:"],
      sequence [.optional (phrase ["abstract"]), phrase ["class"], .literal name, .wordEdge] ]
  | .python =>
    [ sequence [.optional (phrase ["async"]), phrase ["def"], .literal name, gap, word "("],
      sequence [phrase ["class"], .literal name, .wordEdge] ]
  | .rust =>
    [ sequence [.optional (phrase ["async"]), phrase ["fn"], .literal name, .wordEdge] ]
  | .go =>
    [ sequence [phrase ["func"],
        .optional (sequence [word "(", oneOrMore (· != ')'), word ")", blanks]),
        .literal name, gap, word "(", .run (· != ')'), word ")"] ]
  | .unsupported => []

def dropDecorators (cs : List Char) : List Char :=
  match cs with
  | '@' :: rest =>
    match _h : rest.dropWhile (· != '\n') with
    | _ :: more => dropDecorators more
    | [] => '@' :: rest
  | _ => cs
termination_by cs.length
decreasing_by
  have := (List.dropWhile_sublist (l := rest) (· != '\n')).length_le
  simp_all
  omega

theorem length_dropDecorators (cs : List Char) : (dropDecorators cs).length ≤ cs.length := by
  fun_induction dropDecorators cs with
  | case1 rest c more h ih =>
    have := (List.dropWhile_sublist (l := rest) (· != '\n')).length_le
    rw [h] at this
    simp only [List.length_cons] at *
    omega
  | case2 => simp
  | case3 => simp

/-- Where a header may start on a line; decorators go with their declaration. -/
def headerStart (family : LanguageFamily) (cs : List Char) : List Char :=
  if family = .python then dropDecorators cs else cs

def startsSibling (sibling : Pattern) (cs : List Char) : Bool :=
  cs.isEmpty || sibling.matchesAt ⟨some '\n', cs⟩

/-- From the first line break before a sibling or the end of the text; else nothing. -/
def fromSibling (sibling : Pattern) : List Char → List Char
  | [] => []
  | c :: cs => if c = '\n' && startsSibling sibling cs then c :: cs else fromSibling sibling cs

theorem length_fromSibling (sibling : Pattern) (cs : List Char) :
    (fromSibling sibling cs).length ≤ cs.length := by
  induction cs with
  | nil => simp [fromSibling]
  | cons c cs ih =>
    unfold fromSibling
    split
    · exact Nat.le_refl _
    · simp only [List.length_cons]
      omega

/-- What is left at the start of a line when the declaration that starts there is taken out. -/
def afterDeclaration? (family : LanguageFamily) (header : Pattern) (before : Option Char)
    (cs : List Char) : Option (List Char) :=
  (header.end? ⟨before, headerStart family cs⟩).map fun place =>
    fromSibling (boundary family) place.rest

theorem length_afterDeclaration? {family : LanguageFamily} {header : Pattern}
    {before : Option Char} {cs rest : List Char}
    (h : afterDeclaration? family header before cs = some rest) : rest.length ≤ cs.length := by
  obtain ⟨place, found, rfl⟩ := Option.map_eq_some_iff.1 h
  have reached := (Pattern.suffix_of_end? found).length_le
  have left := length_fromSibling (boundary family) place.rest
  have start : (headerStart family cs).length ≤ cs.length := by
    unfold headerStart
    split
    · exact length_dropDecorators cs
    · exact Nat.le_refl _
  dsimp only at reached
  omega

/-- Takes out the declaration at each line start behind a line break; the line break stays. -/
def removalStep (family : LanguageFamily) (header : Pattern) : ScanStep := fun c cs =>
  if c = '\n' then
    match h : afterDeclaration? family header (some '\n') cs with
    | some rest => (['\n'], ⟨rest, length_afterDeclaration? h⟩)
    | none => copy c cs
  else copy c cs

def removeDeclarations (family : LanguageFamily) (cs : List Char) (header : Pattern) : List Char :=
  match afterDeclaration? family header none cs with
  | some rest => scan (removalStep family header) rest
  | none => scan (removalStep family header) cs

end PromptPack.Prune
