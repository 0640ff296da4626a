import PromptPack.Proofs.Text.Reading
import PromptPack.Prune.Declaration

/-! What a header reads. It opens with a keyword, and only keywords, white space and a star, in Go
also a receiver, stand before the name. So the line alone tells which name it declares, and a line
inside a header cannot declare another one. -/

namespace PromptPack.Prune

open Text
open Text.Pattern (word oneOrMore sequence anyOf)

def keywords : LanguageFamily → List String
  | .typescript => ["async", "function", "const", "let", "var", "abstract", "class"]
  | .python => ["async", "def", "class"]
  | .rust => ["async", "fn"]
  | .go => ["func"]
  | .unsupported => []

/-- White space, or the star of a generator. -/
def isSeparator (c : Char) : Bool := isBlank c || c == '*'

inductive Lead (family : LanguageFamily) : List Char → Prop
  | nil : Lead family []
  | separator {c : Char} {cs : List Char} : isSeparator c = true → Lead family cs →
      Lead family (c :: cs)
  | keyword {key : String} {c : Char} {cs : List Char} : key ∈ keywords family →
      isSeparator c = true → Lead family cs → Lead family (key.toList ++ c :: cs)
  | receiver {inner cs : List Char} : family = .go → ')' ∉ inner → Lead family cs →
      Lead family ('(' :: inner ++ ')' :: cs)

def Opening (family : LanguageFamily) (cs : List Char) : Prop :=
  ∃ key ∈ keywords family, ∃ c more, isSeparator c = true ∧ Lead family more ∧
    cs = key.toList ++ c :: more

inductive Closing (family : LanguageFamily) : List Char → Prop
  | edge : Closing family []
  | closer {space more : List Char} {c : Char} : (∀ d ∈ space, isBlank d = true) →
      c ∈ ['(', '<', '=', ':'] → family = .go ∨ more = [] → Closing family (space ++ c :: more)

section

variable {family : LanguageFamily} {name taken rest front back : List Char} {before : Option Char}

theorem Lead.append (h : Lead family front) (more : Lead family back) :
    Lead family (front ++ back) := by
  induction h with
  | nil => exact more
  | separator isSep _ ih => exact .separator isSep ih
  | keyword isKey isSep _ ih =>
    rw [List.append_assoc, List.cons_append]
    exact .keyword isKey isSep ih
  | receiver go inside _ ih =>
    rw [List.append_assoc, List.cons_append]
    exact .receiver go inside ih

theorem lead_of_separators (h : ∀ c ∈ front, isSeparator c = true) : Lead family front := by
  induction front with
  | nil => exact .nil
  | cons c front ih =>
    obtain ⟨first, others⟩ := List.forall_mem_cons.mp h
    exact .separator first (ih others)

theorem isSeparator_of_isBlank {c : Char} (h : isBlank c = true) : isSeparator c = true := by
  rw [isSeparator, h, Bool.true_or]

theorem Opening.lead (h : Opening family front) : Lead family front := by
  obtain ⟨key, isKey, c, more, isSep, lead, rfl⟩ := h
  exact .keyword isKey isSep lead

theorem Opening.append (h : Opening family front) (more : Lead family back) :
    Opening family (front ++ back) := by
  obtain ⟨key, isKey, c, others, isSep, lead, rfl⟩ := h
  refine ⟨key, isKey, c, others ++ back, isSep, lead.append more, ?_⟩
  rw [List.append_assoc, List.cons_append]

theorem reads_blanks_iff : blanks.Reads before taken rest ↔
    ∃ c cs, taken = c :: cs ∧ ∀ d ∈ c :: cs, isBlank d = true := by
  constructor
  · rintro ⟨_, cs, rfl, ⟨c, first, rfl⟩, others⟩
    exact ⟨c, cs, rfl, List.forall_mem_cons.mpr ⟨first, others⟩⟩
  · rintro ⟨c, cs, rfl, all⟩
    obtain ⟨first, others⟩ := List.forall_mem_cons.mp all
    exact ⟨[c], cs, rfl, ⟨c, first, rfl⟩, others⟩

theorem separators_of_functionGap (h : functionGap.Reads before taken rest) :
    ∃ c cs, taken = c :: cs ∧ ∀ d ∈ c :: cs, isSeparator d = true := by
  rcases h with ⟨space, _, rfl, first, _, more, rfl, rfl, others⟩ | h
  · have all : ∀ d ∈ space ++ ('*' :: more), isSeparator d = true := by
      intro d member
      rcases List.mem_append.mp member with member | member
      · exact isSeparator_of_isBlank (first d member)
      · rcases List.mem_cons.mp member with rfl | member
        · rfl
        · exact isSeparator_of_isBlank (others d member)
    cases space with
    | nil => exact ⟨'*', more, rfl, all⟩
    | cons c space => exact ⟨c, space ++ '*' :: more, rfl, all⟩
  · obtain ⟨c, cs, rfl, all⟩ := reads_blanks_iff.mp h
    exact ⟨c, cs, rfl, fun d member => isSeparator_of_isBlank (all d member)⟩

theorem opening_of_separators {key : String} (isKey : key ∈ keywords family)
    (h : ∃ c cs, taken = c :: cs ∧ ∀ d ∈ c :: cs, isSeparator d = true) :
    Opening family (key.toList ++ taken) := by
  obtain ⟨c, cs, rfl, all⟩ := h
  obtain ⟨first, others⟩ := List.forall_mem_cons.mp all
  exact ⟨key, isKey, c, cs, first, lead_of_separators others, rfl⟩

theorem opening_of_blanks {key : String} (isKey : key ∈ keywords family)
    (h : blanks.Reads before taken rest) : Opening family (key.toList ++ taken) := by
  obtain ⟨c, cs, rfl, all⟩ := reads_blanks_iff.mp h
  exact opening_of_separators isKey
    ⟨c, cs, rfl, fun d member => isSeparator_of_isBlank (all d member)⟩

theorem opening_of_phrase {key : String} (isKey : key ∈ keywords family)
    (h : (phrase [key]).Reads before taken rest) : Opening family taken := by
  obtain ⟨_, space, rfl, rfl, reads⟩ := h
  exact opening_of_blanks isKey reads

theorem opening_of_optional {key : String} (isKey : key ∈ keywords family)
    (h : (Pattern.optional (phrase [key])).Reads before taken rest) (more : Opening family back) :
    Opening family (taken ++ back) := by
  rcases h with h | rfl
  · exact (opening_of_phrase isKey h).append more.lead
  · exact more

/-- A header of the name can read `taken` in front of `rest`. -/
def ReadsHeader (family : LanguageFamily) (name : List Char) (before : Option Char)
    (taken rest : List Char) : Prop :=
  ∃ header ∈ headers family name, header.Reads before taken rest

structure HeaderParts (family : LanguageFamily) (name taken rest opening closing : List Char) :
    Prop where
  split : taken = opening ++ (name ++ closing)
  opens : Opening family opening
  closes : Closing family closing
  edge : closing = [] → ∃ before, isWordEdge (lastOf before name) rest.head? = true

theorem headerParts_of_edge {opening : List Char} (opens : Opening family opening)
    (h : (sequence [.literal name, .wordEdge]).Reads before taken rest) :
    ∃ closing, HeaderParts family name (opening ++ taken) rest opening closing := by
  obtain ⟨_, _, rfl, rfl, rfl, edge⟩ := h
  exact ⟨[], rfl, opens, .edge, fun _ => ⟨before, edge⟩⟩

theorem headerParts_of_closer {opening : List Char} {closer : Pattern}
    (opens : Opening family opening)
    (h : (sequence [.literal name, gap, closer]).Reads before taken rest)
    (closes : ∀ before cs, closer.Reads before cs rest →
      ∃ c ∈ ['(', '<', '=', ':'], ∃ more, (family = .go ∨ more = []) ∧ cs = c :: more) :
    ∃ closing, HeaderParts family name (opening ++ taken) rest opening closing := by
  obtain ⟨_, _, rfl, rfl, space, _, rfl, blank, closed⟩ := h
  obtain ⟨c, isCloser, more, short, rfl⟩ := closes _ _ closed
  exact ⟨space ++ c :: more, rfl, opens, .closer blank isCloser short, fun none => by simp at none⟩

theorem closer_of_oneOf {members : String} (isCloser : ∀ c ∈ members.toList,
    c ∈ ['(', '<', '=', ':']) (before : Option Char) (cs : List Char)
    (h : (oneOf members).Reads before cs rest) :
    ∃ c ∈ ['(', '<', '=', ':'], ∃ more, (family = .go ∨ more = []) ∧ cs = c :: more := by
  obtain ⟨c, member, rfl⟩ := h
  exact ⟨c, isCloser c (List.contains_iff_mem.mp member), [], .inr rfl, rfl⟩

theorem opening_of_receiver (isGo : family = .go) (h : (sequence [word "(", oneOrMore (· != ')'),
    word ")", blanks]).Reads before taken rest) : Lead family taken := by
  obtain ⟨_, _, rfl, rfl, _, _, rfl, ⟨_, more, rfl, ⟨c, first, rfl⟩, others⟩, _, space, rfl, rfl,
    blank⟩ := h
  obtain ⟨d, ds, rfl, all⟩ := reads_blanks_iff.mp blank
  have inside : ')' ∉ c :: more := by
    intro member
    rcases List.mem_cons.mp member with rfl | member
    · exact absurd first (by decide)
    · exact absurd (others _ member) (by decide)
  exact .receiver isGo inside
    (lead_of_separators fun e member => isSeparator_of_isBlank (all e member))

/-- A header reads a keyword, what may lead to the name, the name and what closes it. -/
theorem ReadsHeader.parts (h : ReadsHeader family name before taken rest) :
    ∃ opening closing, HeaderParts family name taken rest opening closing := by
  obtain ⟨header, member, h⟩ := h
  cases family with
  | typescript =>
    simp only [headers, List.mem_cons, List.not_mem_nil, or_false] at member
    rcases member with rfl | rfl | rfl
    · obtain ⟨o, _, rfl, ro, _, _, rfl, rfl, g, closed, rfl, rg, rc⟩ := h
      have opens : Opening .typescript (o ++ ("function".toList ++ g)) :=
        opening_of_optional (by decide) ro
          (opening_of_separators (by decide) (separators_of_functionGap rg))
      have parts := headerParts_of_closer opens rc (closer_of_oneOf (by simp))
      rw [List.append_assoc, List.append_assoc] at parts
      exact ⟨_, parts⟩
    · obtain ⟨k, _, rfl, kind, g, closed, rfl, rg, rc⟩ := h
      obtain ⟨key, isKey, rfl⟩ : ∃ key ∈ keywords .typescript, k = key.toList := by
        rcases kind with rfl | rfl | rfl
        · exact ⟨"const", by decide, rfl⟩
        · exact ⟨"let", by decide, rfl⟩
        · exact ⟨"var", by decide, rfl⟩
      have parts := headerParts_of_closer (opening_of_blanks isKey rg) rc
        (closer_of_oneOf (by simp))
      rw [List.append_assoc] at parts
      exact ⟨_, parts⟩
    · obtain ⟨o, _, rfl, ro, k, closed, rfl, rk, rc⟩ := h
      have opens : Opening .typescript (o ++ k) :=
        opening_of_optional (by decide) ro (opening_of_phrase (by decide) rk)
      have parts := headerParts_of_edge opens rc
      rw [List.append_assoc] at parts
      exact ⟨_, parts⟩
  | python =>
    simp only [headers, List.mem_cons, List.not_mem_nil, or_false] at member
    rcases member with rfl | rfl
    · obtain ⟨o, _, rfl, ro, k, closed, rfl, rk, rc⟩ := h
      have opens : Opening .python (o ++ k) :=
        opening_of_optional (by decide) ro (opening_of_phrase (by decide) rk)
      have parts := headerParts_of_closer opens rc
        fun _ cs reads => ⟨'(', by decide, [], .inr rfl, reads⟩
      rw [List.append_assoc] at parts
      exact ⟨_, parts⟩
    · obtain ⟨k, closed, rfl, rk, rc⟩ := h
      exact ⟨_, headerParts_of_edge (opening_of_phrase (by decide) rk) rc⟩
  | rust =>
    obtain rfl := List.mem_singleton.mp member
    obtain ⟨o, _, rfl, ro, k, closed, rfl, rk, rc⟩ := h
    have opens : Opening .rust (o ++ k) :=
      opening_of_optional (by decide) ro (opening_of_phrase (by decide) rk)
    have parts := headerParts_of_edge opens rc
    rw [List.append_assoc] at parts
    exact ⟨_, parts⟩
  | go =>
    obtain rfl := List.mem_singleton.mp member
    obtain ⟨k, _, rfl, rk, r, closed, rfl, rr, rc⟩ := h
    have lead : Lead .go r := by
      rcases rr with rr | rfl
      · exact opening_of_receiver rfl rr
      · exact .nil
    have parts := headerParts_of_closer ((opening_of_phrase (by decide) rk).append lead) rc
      fun _ cs reads => by
        obtain ⟨_, more, rfl, rfl, _⟩ := reads
        exact ⟨'(', by decide, more, .inl rfl, rfl⟩
    rw [List.append_assoc] at parts
    exact ⟨_, parts⟩
  | unsupported => cases member

/-! At the end of a text no header ends with a line break. -/

/-- Where the text ends behind it, what the pattern reads does not end with a line break. -/
def EndsSolid (p : Pattern) : Prop :=
  ∀ before taken, p.Reads before taken [] → lastOf before taken ≠ some '\n'

theorem endsSolid_seq {p q : Pattern} (last : EndsSolid q) : EndsSolid (.seq p q) := by
  rintro before _ ⟨front, back, rfl, _, reads⟩
  rw [lastOf_append]
  exact last _ _ reads

theorem endsSolid_wordEdge : EndsSolid .wordEdge := by
  rintro before _ ⟨rfl, edge⟩ isBreak
  rw [lastOf_nil] at isBreak
  subst isBreak
  cases edge

theorem endsSolid_oneOf {members : String} (solid : '\n' ∉ members.toList) :
    EndsSolid (oneOf members) := by
  rintro before _ ⟨c, member, rfl⟩ isBreak
  cases isBreak
  exact solid (List.contains_iff_mem.mp member)

theorem endsSolid_word {w : String} (nonempty : w.toList ≠ []) (solid : '\n' ∉ w.toList) :
    EndsSolid (word w) := by
  rintro before _ rfl isBreak
  rw [lastOf_of_ne_nil nonempty] at isBreak
  exact solid (List.mem_of_getLast? isBreak)

theorem endsSolid_sequence {ps : List Pattern} {p : Pattern} (last : ps.getLast? = some p)
    (solid : EndsSolid p) : EndsSolid (sequence ps) := by
  induction ps with
  | nil => cases last
  | cons first ps ih =>
    cases ps with
    | nil =>
      cases last
      exact solid
    | cons second ps =>
      rw [List.getLast?_cons_cons] at last
      exact endsSolid_seq (ih last)

theorem endsSolid_header {header : Pattern} (member : header ∈ headers family name) :
    EndsSolid header := by
  cases family with
  | typescript =>
    simp only [headers, List.mem_cons, List.not_mem_nil, or_false] at member
    rcases member with rfl | rfl | rfl
    · exact endsSolid_sequence rfl (endsSolid_oneOf (by decide))
    · exact endsSolid_sequence rfl (endsSolid_oneOf (by decide))
    · exact endsSolid_sequence rfl endsSolid_wordEdge
  | python =>
    simp only [headers, List.mem_cons, List.not_mem_nil, or_false] at member
    rcases member with rfl | rfl
    · exact endsSolid_sequence rfl (endsSolid_word (by decide) (by decide))
    · exact endsSolid_sequence rfl endsSolid_wordEdge
  | rust =>
    obtain rfl := List.mem_singleton.mp member
    exact endsSolid_sequence rfl endsSolid_wordEdge
  | go =>
    obtain rfl := List.mem_singleton.mp member
    exact endsSolid_sequence rfl (endsSolid_word (by decide) (by decide))
  | unsupported => cases member

end

end PromptPack.Prune
