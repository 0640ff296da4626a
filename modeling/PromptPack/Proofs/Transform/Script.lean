import Mathlib.Data.List.Infix
import PromptPack.Proofs.Transform.HashLines

/-! Scripts, read one character at a time as their language reads them: comments behind a hash sign,
literals of one line, and triple-quoted blocks that may run over lines. A backslash protects the
character behind it in both. Literals with replacement fields are read like the others. What stays
of a script is what is read outside comments and blocks. -/

namespace PromptPack.Transform.Script

open Text

inductive Region where
  | code | comment | literal
  /-- A triple-quoted literal, its marks included. -/
  | block
deriving DecidableEq, Repr

def Region.stays : Region → Bool
  | .code | .literal => true
  | .comment | .block => false

inductive State where
  | code
  | comment
  /-- In a first line that names an interpreter, a comment that is to stay. -/
  | interpreter
  | literal (mark : Char)
  | escaped (mark : Char)
  /-- In the opener of a block; so many marks are left, and one more. -/
  | opening (mark : Char) (left : Nat)
  | block (mark : Char)
  | blockEscaped (mark : Char)
  | closing (left : Nat)

def endsLine (c : Char) : Bool := c == '\n' || c == '\r'

/-- What opens a block, and what closes it. -/
def fence (mark : Char) : List Char := [mark, mark, mark]

def tripleAhead : List Char → Bool
  | [] => false
  | c :: cs => isQuoteMark c && [c, c].isPrefixOf cs

namespace State

/-- A character in code. The white space in front of a comment is read as part of it. -/
def inCode (c : Char) (cs : List Char) : State × Region :=
  if endsLine c then (.code, .code)
  else if hashAhead (c :: cs) then (.comment, .comment)
  else if tripleAhead (c :: cs) then (.opening c 1, .block)
  else if isQuoteMark c then (.literal c, .literal)
  else (.code, .code)

/-- The state behind a character, and what the character belongs to. A line break ends a literal
that is not closed, except behind a backslash; there the two characters of a break count as one. -/
def next : State → Char → List Char → State × Region
  | .code, c, cs => inCode c cs
  | .comment, c, _ => if endsLine c then (.code, .code) else (.comment, .comment)
  | .interpreter, c, _ => if endsLine c then (.code, .code) else (.interpreter, .code)
  | .literal mark, c, _ =>
    if c = '\\' then (.escaped mark, .literal)
    else if c = mark then (.code, .literal)
    else if endsLine c then (.code, .code)
    else (.literal mark, .literal)
  | .escaped mark, c, cs =>
    (if c = '\r' ∧ cs.head? = some '\n' then .escaped mark else .literal mark, .literal)
  | .opening mark (left + 1), _, _ => (.opening mark left, .block)
  | .opening mark 0, _, _ => (.block mark, .block)
  | .block mark, c, cs =>
    if c = '\\' then (.blockEscaped mark, .block)
    else if fence mark <+: c :: cs then (.closing 1, .block)
    else (.block mark, .block)
  | .blockEscaped mark, _, _ => (.block mark, .block)
  | .closing (left + 1), _, _ => (.closing left, .block)
  | .closing 0, _, _ => (.code, .block)

end State

def read : State → List Char → List (Region × Char)
  | _, [] => []
  | state, c :: cs => ((state.next c cs).2, c) :: read (state.next c cs).1 cs

def start (cs : List Char) : State :=
  if startsWith ['#', '!'] cs then .interpreter else .code

def reading (cs : List Char) : List (Region × Char) := read (start cs) cs

def remaining (entries : List (Region × Char)) : List Char :=
  (entries.filter fun entry => entry.1.stays).map Prod.snd

section

variable {state : State} {mark c : Char} {cs : List Char} {entries : List (Region × Char)}

theorem remaining_append (first second : List (Region × Char)) :
    remaining (first ++ second) = remaining first ++ remaining second := by
  simp [remaining]

theorem remaining_of_stays (stays : ∀ entry ∈ entries, entry.1.stays = true) :
    remaining entries = entries.map Prod.snd := by
  rw [remaining, List.filter_eq_self.mpr stays]

theorem remaining_of_goes (goes : ∀ entry ∈ entries, entry.1.stays = false) :
    remaining entries = [] := by
  rw [remaining, List.filter_eq_nil_iff.mpr fun entry member => by simp [goes entry member]]
  rfl

theorem cut_at (entries : List (Region × Char)) (first length : Nat) :
    entries = entries.take first ++ (entries.drop first).take length ++
      (entries.drop first).drop length := by
  rw [List.append_assoc, List.take_append_drop, List.take_append_drop]

theorem map_snd_read (state : State) (cs : List Char) : (read state cs).map Prod.snd = cs := by
  induction cs generalizing state with
  | nil => rfl
  | cons c cs ih => rw [read, List.map_cons, ih]

theorem remaining_read_stays (stays : (state.next c cs).2.stays = true) :
    remaining (read state (c :: cs)) = c :: remaining (read (state.next c cs).1 cs) := by
  simp [remaining, read, stays]

theorem remaining_read_goes (goes : (state.next c cs).2.stays = false) :
    remaining (read state (c :: cs)) = remaining (read (state.next c cs).1 cs) := by
  simp [remaining, read, goes]

/-! Fences. -/

theorem tripleAhead_iff :
    tripleAhead cs = true ↔ ∃ mark, isQuoteMark mark = true ∧ fence mark <+: cs := by
  cases cs with
  | nil => simp [tripleAhead, fence]
  | cons c cs => simp [tripleAhead, fence, and_comm]

theorem tripleAhead_of_fence (quote : isQuoteMark mark = true) (ahead : fence mark <+: cs) :
    tripleAhead cs = true := tripleAhead_iff.mpr ⟨mark, quote, ahead⟩

theorem exists_of_fence (ahead : fence mark <+: c :: cs) :
    c = mark ∧ ∃ rest, cs = mark :: mark :: rest := by
  obtain ⟨rest, joined⟩ := ahead
  obtain ⟨rfl, rfl⟩ := List.cons.inj joined
  exact ⟨rfl, rest, rfl⟩

theorem not_fence_of_ne (other : c ≠ mark) : ¬ fence mark <+: c :: cs :=
  fun ahead => other (exists_of_fence ahead).1

theorem ne_of_isQuoteMark (quote : isQuoteMark mark = true) : mark ≠ '\n' ∧ mark ≠ '\\' := by
  rcases isQuoteMark_iff.mp quote with rfl | rfl <;> decide

end

example : remaining (reading "#! x\n'''a # b'''\ns = \"# c\"  # it's d\n'''\n'''t\n".toList) =
    "#! x\n\ns = \"# c\"\nt\n".toList := by decide +kernel

end PromptPack.Transform.Script
