import PromptPack.Text.Letter

/-! Patterns of text with an order of preference. A pattern read at a place gives every place where
it can end, the preferred one first, so a choice is taken back only when what follows fails. -/

namespace PromptPack.Text

/-- A position in a text: the character just passed, if any, and the characters that are left. -/
structure Place where
  before : Option Char
  rest : List Char
deriving DecidableEq, Repr

inductive Pattern where
  | literal (cs : List Char)
  | one (isMember : Char → Bool)
  /-- As many characters of a class as there are, else fewer. -/
  | run (isMember : Char → Bool)
  /-- The pattern, else nothing. -/
  | optional (p : Pattern)
  | seq (p q : Pattern)
  /-- The first pattern, else the second. -/
  | alt (p q : Pattern)
  /-- Nothing, between a word character and another. -/
  | wordEdge
  /-- Nothing, at the start of the text or behind a line break. -/
  | lineStart

namespace Pattern

def literalEnd? : List Char → Place → Option Place
  | [], place => some place
  | _ :: _, ⟨_, []⟩ => none
  | k :: ks, ⟨_, c :: cs⟩ => if k = c then literalEnd? ks ⟨some c, cs⟩ else none

/-- The ends of a run, put in front of the shorter ones found so far. -/
def runEnds (isMember : Char → Bool) (before : Option Char) (rest : List Char)
    (shorter : List Place) : List Place :=
  match rest with
  | [] => ⟨before, []⟩ :: shorter
  | c :: cs =>
    if isMember c then runEnds isMember (some c) cs (⟨before, c :: cs⟩ :: shorter)
    else ⟨before, c :: cs⟩ :: shorter

def ends : Pattern → Place → List Place
  | .literal cs, place => (literalEnd? cs place).toList
  | .one isMember, ⟨_, c :: cs⟩ => if isMember c then [⟨some c, cs⟩] else []
  | .one _, ⟨_, []⟩ => []
  | .run isMember, place => runEnds isMember place.before place.rest []
  | .optional p, place => p.ends place ++ [place]
  | .seq p q, place => (p.ends place).flatMap q.ends
  | .alt p q, place => p.ends place ++ q.ends place
  | .wordEdge, place => if isWordEdge place.before place.rest.head? then [place] else []
  | .lineStart, place => if place.before.all (· == '\n') then [place] else []

theorem suffix_of_literalEnd? {cs : List Char} {place last : Place}
    (h : literalEnd? cs place = some last) : last.rest <:+ place.rest := by
  induction cs generalizing place with
  | nil => simp_all [literalEnd?]
  | cons k ks ih =>
    obtain ⟨before, rest⟩ := place
    cases rest with
    | nil => simp [literalEnd?] at h
    | cons c cs =>
      simp only [literalEnd?] at h
      split at h
      · exact (ih h).trans (List.suffix_cons c cs)
      · simp at h

theorem suffix_of_mem_runEnds {isMember : Char → Bool} {before : Option Char} {rest : List Char}
    {shorter : List Place} {last : Place} (h : last ∈ runEnds isMember before rest shorter) :
    last ∈ shorter ∨ last.rest <:+ rest := by
  induction rest generalizing before shorter with
  | nil =>
    rcases List.mem_cons.1 h with rfl | h
    · exact .inr (List.suffix_refl _)
    · exact .inl h
  | cons c cs ih =>
    unfold runEnds at h
    split at h
    · rcases ih h with h | h
      · rcases List.mem_cons.1 h with rfl | h
        · exact .inr (List.suffix_refl _)
        · exact .inl h
      · exact .inr (h.trans (List.suffix_cons c cs))
    · rcases List.mem_cons.1 h with rfl | h
      · exact .inr (List.suffix_refl _)
      · exact .inl h

theorem suffix_of_mem_ends {p : Pattern} {place last : Place} (h : last ∈ p.ends place) :
    last.rest <:+ place.rest := by
  induction p generalizing place last with
  | literal cs =>
    simp only [ends, Option.mem_toList] at h
    exact suffix_of_literalEnd? h
  | one isMember =>
    obtain ⟨before, rest⟩ := place
    cases rest with
    | nil => simp [ends] at h
    | cons c cs =>
      simp only [ends] at h
      split at h
      · obtain rfl := List.mem_singleton.1 h
        exact List.suffix_cons c cs
      · simp at h
  | run isMember =>
    rcases suffix_of_mem_runEnds h with h | h
    · simp at h
    · exact h
  | optional p ih =>
    rcases List.mem_append.1 h with h | h
    · exact ih h
    · obtain rfl := List.mem_singleton.1 h
      exact List.suffix_refl _
  | seq p q ihp ihq =>
    obtain ⟨middle, first, second⟩ := List.mem_flatMap.1 h
    exact (ihq second).trans (ihp first)
  | alt p q ihp ihq =>
    rcases List.mem_append.1 h with h | h
    · exact ihp h
    · exact ihq h
  | wordEdge =>
    simp only [ends] at h
    split at h
    · obtain rfl := List.mem_singleton.1 h
      exact List.suffix_refl _
    · simp at h
  | lineStart =>
    simp only [ends] at h
    split at h
    · obtain rfl := List.mem_singleton.1 h
      exact List.suffix_refl _
    · simp at h

def matchesAt (p : Pattern) (place : Place) : Bool := !(p.ends place).isEmpty

def end? (p : Pattern) (place : Place) : Option Place := (p.ends place).head?

theorem suffix_of_end? {p : Pattern} {place last : Place} (h : p.end? place = some last) :
    last.rest <:+ place.rest :=
  suffix_of_mem_ends (List.mem_of_head? h)

def foundFrom (p : Pattern) (before : Option Char) : List Char → Bool
  | [] => p.matchesAt ⟨before, []⟩
  | c :: cs => p.matchesAt ⟨before, c :: cs⟩ || foundFrom p (some c) cs

def foundIn (p : Pattern) (cs : List Char) : Bool := p.foundFrom none cs

def oneOrMore (isMember : Char → Bool) : Pattern := .seq (.one isMember) (.run isMember)

def word (s : String) : Pattern := .literal s.toList

def sequence : List Pattern → Pattern
  | [] => .literal []
  | [p] => p
  | p :: ps => .seq p (sequence ps)

def anyOf : List Pattern → Pattern
  | [] => .one fun _ => false
  | [p] => p
  | p :: ps => .alt p (anyOf ps)

end Pattern

end PromptPack.Text
