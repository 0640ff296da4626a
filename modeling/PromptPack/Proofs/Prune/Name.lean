import PromptPack.Proofs.Prune.Header

/-! The name that a header declares. What leads to a name is cut off without knowing the name, so
two headers read at one place declare one name, up to a word boundary inside a longer name. Main
statement: `not_clash`. -/

namespace PromptPack.Prune

open Text

/-- The characters of names; TypeScript has a dollar sign among them. -/
def isNameChar (family : LanguageFamily) (c : Char) : Bool :=
  isWord c || (family == .typescript && c == '$')

/-- An identifier that is not one of the words in front of names. -/
structure IsName (family : LanguageFamily) (name : List Char) : Prop where
  nonempty : name ≠ []
  chars : ∀ c ∈ name, isNameChar family c = true
  free : String.ofList name ∉ keywords family

def fromName (family : LanguageFamily) (cs : List Char) : List Char :=
  match cs with
  | [] => []
  | c :: cs =>
    if isSeparator c then fromName family cs
    -- The receiver of a method.
    else if c = '(' ∧ family = .go then fromName family (cs.dropWhile (· != ')')).tail
    else if String.ofList ((c :: cs).takeWhile (isNameChar family)) ∈ keywords family then
      fromName family (cs.dropWhile (isNameChar family))
    else c :: cs
termination_by cs.length
decreasing_by
  · exact Nat.lt_succ_self _
  · have := (List.dropWhile_sublist (l := cs) (· != ')')).length_le
    simp only [List.length_tail, List.length_cons]
    omega
  · exact Nat.lt_succ_of_le (List.dropWhile_sublist _).length_le

def StartsName (family : LanguageFamily) (cs : List Char) : Prop :=
  cs.head?.any (isNameChar family) = true ∧
    String.ofList (cs.takeWhile (isNameChar family)) ∉ keywords family

def BreaksName (family : LanguageFamily) (front back : List Char) : Prop :=
  front.getLast?.any (isNameChar family) = true ∧ back.head?.any (isNameChar family) = true

/-- The other name is not this one, nor this one with a word boundary behind it. -/
def Apart (name other : List Char) : Prop :=
  ∀ more, other = name ++ more → more ≠ [] ∧ isWordEdge name.getLast? more.head? = false

/-- The text leads to the name, with a word boundary between the name and what is behind it. -/
structure LeadsTo (family : LanguageFamily) (name cs behind : List Char) : Prop where
  lead : ∃ front, Lead family front ∧ cs = front ++ (name ++ behind)
  edge : ∀ c ∈ behind.head?, isNameChar family c = true → isWordEdge name.getLast? c = true

def blankCodes : List Nat :=
  List.range' 9 5 ++ List.range' 28 5 ++ List.range' 0x2000 11 ++
    [0x85, 0xA0, 0x1680, 0x2028, 0x2029, 0x202F, 0x205F, 0x3000]

section

variable {α : Type} {c d : α} {cs front back inner more : List α}

theorem cons_eq_append_cons (h : c :: cs = inner ++ d :: more) :
    (c = d ∧ cs = more) ∨ ∃ start, cs = start ++ d :: more := by
  rcases List.cons_eq_append_iff.mp h with ⟨_, here⟩ | ⟨start, _, later⟩
  · obtain ⟨rfl, rfl⟩ := List.cons.inj here
    exact .inl ⟨rfl, rfl⟩
  · exact .inr ⟨start, later⟩

theorem append_eq_append_cons (h : front ++ back = inner ++ d :: more) :
    (∃ rest, front = inner ++ d :: rest ∧ more = rest ++ back) ∨
      ∃ start, inner = front ++ start ∧ back = start ++ d :: more := by
  rcases List.append_eq_append_iff.mp h with ⟨start, before, here⟩ | ⟨rest, rfl, here⟩
  · exact .inr ⟨start, before, here⟩
  · rcases List.cons_eq_append_iff.mp here with ⟨rfl, behind⟩ | ⟨rest, rfl, rfl⟩
    · exact .inr ⟨[], by simp, behind⟩
    · exact .inl ⟨rest, rfl, rfl⟩

theorem behind_of_append (outside : d ∉ front) (h : front ++ back = inner ++ d :: more) :
    ∃ start, back = start ++ d :: more := by
  rcases append_eq_append_cons h with ⟨rest, rfl, _⟩ | ⟨start, _, later⟩
  · exact absurd (List.mem_append_right _ List.mem_cons_self) outside
  · exact ⟨start, later⟩

end

section

variable {family : LanguageFamily} {cs front back name other : List Char} {c : Char}

theorem toNat_of_isBlank (h : isBlank c = true) : c.toNat ∈ blankCodes := by
  simp only [isBlank, Bool.or_eq_true, Bool.and_eq_true, decide_eq_true_eq, beq_iff_eq] at h
  simp only [blankCodes, List.mem_append, List.mem_range'_1, List.mem_cons, List.not_mem_nil,
    or_false]
  omega

theorem Apart.ne (h : Apart name other) : name ≠ other := fun same =>
  (h [] (by rw [same, List.append_nil])).1 rfl

theorem isWord_of_isBlank (h : isBlank c = true) : isWord c = false := by
  have all : ∀ n ∈ blankCodes, isWord (Char.ofNat n) = false := by decide +kernel
  have here := all c.toNat (toNat_of_isBlank h)
  rwa [Char.ofNat_toNat] at here

theorem isNameChar_of_isSeparator (h : isSeparator c = true) : isNameChar family c = false := by
  rcases Bool.or_eq_true_iff.mp h with blank | star
  · have dollar : (c == '$') = false := by
      cases same : c == '$' with
      | false => rfl
      | true =>
        obtain rfl := beq_iff_eq.mp same
        exact absurd blank (by decide)
    rw [isNameChar, isWord_of_isBlank blank, dollar, Bool.and_false, Bool.or_false]
  · obtain rfl := beq_iff_eq.mp star
    cases family <;> decide

theorem isNameChar_of_isWord (h : isWord c = true) : isNameChar family c = true := by
  rw [isNameChar, h, Bool.true_or]

theorem isWord_of_keyword {key : String} (isKey : key ∈ keywords family) :
    key.toList ≠ [] ∧ ∀ c ∈ key.toList, isWord c = true := by
  have all : ∀ family, ∀ key ∈ keywords family,
      key.toList ≠ [] ∧ ∀ c ∈ key.toList, isWord c = true := by
    intro family
    cases family <;> simp [keywords, isWord]
  exact all family key isKey

theorem ReadsHeader.exists_cons {before : Option Char} (h : ReadsHeader family name before cs back) :
    ∃ c more, cs = c :: more ∧ isWord c = true := by
  obtain ⟨opening, closing, parts⟩ := h.parts
  obtain ⟨key, isKey, c, more, _, _, rfl⟩ := parts.opens
  obtain ⟨nonempty, words⟩ := isWord_of_keyword isKey
  obtain ⟨k, ks, spelled⟩ := List.exists_cons_of_ne_nil nonempty
  rw [spelled] at words
  refine ⟨k, ks ++ c :: more ++ (name ++ closing), ?_, words k List.mem_cons_self⟩
  rw [parts.split, spelled, List.cons_append, List.cons_append]

theorem fromName_separator (isSep : isSeparator c = true) :
    fromName family (c :: cs) = fromName family cs := by
  rw [fromName.eq_def]
  exact if_pos isSep

theorem fromName_receiver (isGo : family = .go) (inside : ')' ∉ front) :
    fromName family ('(' :: (front ++ ')' :: back)) = fromName family back := by
  have skipped : ((front ++ ')' :: back).dropWhile (· != ')')).tail = back := by
    rw [List.dropWhile_append_of_pos fun d member => bne_iff_ne.mpr (ne_of_mem_of_not_mem member inside)]
    rfl
  rw [fromName.eq_def]
  dsimp only
  rw [if_neg (by decide), if_pos ⟨rfl, isGo⟩, skipped]

theorem fromName_nameChar (starts : cs.head?.any (isNameChar family) = true) :
    fromName family cs = if String.ofList (cs.takeWhile (isNameChar family)) ∈ keywords family then
      fromName family (cs.dropWhile (isNameChar family)) else cs := by
  cases cs with
  | nil => cases starts
  | cons c cs =>
    replace starts : isNameChar family c = true := starts
    have noSep : ¬ isSeparator c = true := fun isSep =>
      Bool.false_ne_true ((isNameChar_of_isSeparator isSep).symm.trans starts)
    have noReceiver : ¬ (c = '(' ∧ family = .go) := by
      rintro ⟨rfl, rfl⟩
      exact absurd starts (by decide)
    rw [fromName.eq_def, List.dropWhile_cons_of_pos starts]
    dsimp only
    rw [if_neg noSep, if_neg noReceiver]

theorem fromName_keyword {key : String} (isKey : key ∈ keywords family)
    (isSep : isSeparator c = true) :
    fromName family (key.toList ++ c :: cs) = fromName family cs := by
  obtain ⟨nonempty, all⟩ := isWord_of_keyword isKey
  have chars : ∀ d ∈ key.toList, isNameChar family d = true :=
    fun d member => isNameChar_of_isWord (all d member)
  have stop : ¬ isNameChar family c = true := by
    rw [isNameChar_of_isSeparator isSep]
    exact Bool.false_ne_true
  have starts : (key.toList ++ c :: cs).head?.any (isNameChar family) = true := by
    rw [List.head?_append, List.head?_eq_some_head nonempty]
    exact chars _ (List.head_mem nonempty)
  rw [fromName_nameChar starts, List.takeWhile_append_of_pos chars,
    List.takeWhile_cons_of_neg stop, List.append_nil, String.ofList_toList, if_pos isKey,
    List.dropWhile_append_of_pos chars, List.dropWhile_cons_of_neg stop, fromName_separator isSep]

theorem fromName_lead (lead : Lead family front) (starts : StartsName family cs) :
    fromName family (front ++ cs) = cs := by
  induction lead with
  | nil =>
    rw [List.nil_append, fromName_nameChar starts.1, if_neg starts.2]
  | separator isSep _ ih =>
    rw [List.cons_append, fromName_separator isSep, ih]
  | keyword isKey isSep _ ih =>
    rw [List.append_assoc, List.cons_append, fromName_keyword isKey isSep, ih]
  | receiver isGo inside _ ih =>
    rw [List.append_assoc, List.cons_append, List.cons_append, fromName_receiver isGo inside, ih]

theorem IsName.head?_append (h : IsName family name) :
    (name ++ cs).head?.any (isNameChar family) = true := by
  rw [List.head?_append, List.head?_eq_some_head h.nonempty]
  exact h.chars _ (List.head_mem h.nonempty)

/-- A word boundary behind a name keeps it from being read as a keyword. -/
theorem IsName.startsName (h : IsName family name)
    (edge : ∀ c ∈ cs.head?, isNameChar family c = true → isWordEdge name.getLast? c = true) :
    StartsName family (name ++ cs) := by
  refine ⟨h.head?_append, fun isKey => ?_⟩
  rw [List.takeWhile_append_of_pos h.chars] at isKey
  have words := (isWord_of_keyword isKey).2
  rw [String.toList_ofList] at words
  cases cs with
  | nil => exact h.free (by simpa using isKey)
  | cons c cs =>
    by_cases isChar : isNameChar family c = true
    · have last := edge c rfl isChar
      have lastWord : name.getLast?.any isWord = true := by
        rw [List.getLast?_eq_some_getLast h.nonempty]
        exact words _ (List.mem_append_left _ (List.getLast_mem h.nonempty))
      have nextWord : isWord c = true := by
        refine words c (List.mem_append_right _ ?_)
        rw [List.takeWhile_cons_of_pos isChar]
        exact List.mem_cons_self
      rw [isWordEdge, lastWord, Option.any_some, nextWord] at last
      exact absurd last (by decide)
    · rw [List.takeWhile_cons_of_neg isChar, List.append_nil] at isKey
      exact h.free isKey

theorem LeadsTo.fromName {behind : List Char} (h : LeadsTo family name cs behind)
    (isName : IsName family name) : fromName family cs = name ++ behind := by
  obtain ⟨front, lead, rfl⟩ := h.lead
  exact fromName_lead lead (isName.startsName h.edge)

theorem isNameChar_of_closing (h : Closing family (c :: cs)) : isNameChar family c = false := by
  have closers : ∀ d ∈ ['(', '<', '=', ':'], isNameChar family d = false := by
    intro d member
    simp only [List.mem_cons, List.not_mem_nil, or_false] at member
    rcases member with rfl | rfl | rfl | rfl <;> cases family <;> decide
  generalize split : c :: cs = closing at h
  cases h with
  | edge => cases split
  | @closer space _ d blank isCloser _ =>
    cases space with
    | nil =>
      obtain ⟨rfl, _⟩ := List.cons.inj split
      exact closers c isCloser
    | cons e space =>
      obtain ⟨rfl, _⟩ := List.cons.inj split
      exact isNameChar_of_isSeparator (isSeparator_of_isBlank (blank c List.mem_cons_self))

theorem LeadsTo.head?_ne_at {behind : List Char} (h : LeadsTo family name cs behind)
    (isName : IsName family name) : cs.head? ≠ some '@' := by
  obtain ⟨front, lead, rfl⟩ := h.lead
  intro same
  cases lead with
  | nil =>
    have starts : (name ++ behind).head?.any (isNameChar family) = true := isName.head?_append
    rw [List.nil_append] at same
    rw [same] at starts
    cases family <;> exact absurd starts (by decide)
  | separator isSep _ =>
    obtain rfl := Option.some.inj same
    exact absurd isSep (by decide)
  | keyword isKey _ _ =>
    obtain ⟨nonempty, words⟩ := isWord_of_keyword isKey
    obtain ⟨k, ks, spelled⟩ := List.exists_cons_of_ne_nil nonempty
    rw [spelled] at same words
    obtain rfl := Option.some.inj same
    exact absurd (words '@' List.mem_cons_self) (by decide)
  | receiver _ _ _ => exact absurd (Option.some.inj same) (by decide)

/-- Names that are apart cannot both be read in one text, if the text does not go on with the second
name behind it. -/
theorem not_clash {behind rest : List Char} (isName : IsName family name)
    (isOther : IsName family other) (apart : Apart name other)
    (leads : LeadsTo family name cs behind) (otherLeads : LeadsTo family other cs rest)
    (stop : rest.head?.any (isNameChar family) = false) : False := by
  have texts : name ++ behind = other ++ rest :=
    (leads.fromName isName).symm.trans (otherLeads.fromName isOther)
  -- One name starts the other, and the longer one goes on with a character of names.
  rcases List.append_eq_append_iff.mp texts with ⟨more, rfl, rfl⟩ | ⟨more, rfl, rfl⟩
  · obtain ⟨nonempty, inside⟩ := apart more rfl
    obtain ⟨c, more, rfl⟩ := List.exists_cons_of_ne_nil nonempty
    have isChar := isOther.chars c (List.mem_append_right _ List.mem_cons_self)
    exact Bool.false_ne_true (inside.symm.trans (leads.edge c rfl isChar))
  · cases more with
    | nil => exact apart.ne (List.append_nil other)
    | cons c more =>
      have isChar := isName.chars c (List.mem_append_right _ List.mem_cons_self)
      exact Bool.false_ne_true (stop.symm.trans isChar)

theorem not_lineBreak_mem_name (isName : IsName family name) : '\n' ∉ name := by
  intro member
  have isChar := isName.chars '\n' member
  rw [isNameChar_of_isSeparator (by decide)] at isChar
  cases isChar

/-- Behind a line break in it, what leads to a name still leads to it. -/
theorem Lead.of_lineBreak {inner more : List Char} (notGo : family ≠ .go)
    (lead : Lead family (inner ++ '\n' :: more)) : Lead family more := by
  generalize split : inner ++ '\n' :: more = front at lead
  induction lead generalizing inner with
  | nil => simp at split
  | separator _ lead ih =>
    rcases cons_eq_append_cons split.symm with ⟨_, rfl⟩ | ⟨start, same⟩
    · exact lead
    · exact ih same.symm
  | @keyword key c cs isKey _ lead ih =>
    have outside : '\n' ∉ key.toList := by
      intro member
      have isChar := (isWord_of_keyword isKey).2 '\n' member
      rw [isWord_of_isBlank (by decide)] at isChar
      cases isChar
    obtain ⟨start, behind⟩ := behind_of_append outside split.symm
    rcases cons_eq_append_cons behind with ⟨_, rfl⟩ | ⟨start, same⟩
    · exact lead
    · exact ih same.symm
  | receiver isGo _ _ _ => exact absurd isGo notGo

theorem exists_cons_of_closing {inner more : List Char} (notGo : family ≠ .go)
    (h : Closing family (inner ++ '\n' :: more)) :
    ∃ c others, more = c :: others ∧ isWord c = false ∧ c ≠ '@' := by
  generalize split : inner ++ '\n' :: more = closing at h
  cases h with
  | edge => simp at split
  | @closer space rest d blank isCloser short =>
    obtain rfl := short.resolve_left notGo
    have closer : isWord d = false ∧ d ≠ '@' ∧ d ≠ '\n' := by
      simp only [List.mem_cons, List.not_mem_nil, or_false] at isCloser
      rcases isCloser with rfl | rfl | rfl | rfl <;> decide
    obtain ⟨noWord, noAt, noBreak⟩ := closer
    rcases append_eq_append_cons split.symm with ⟨rest, rfl, rfl⟩ | ⟨start, _, same⟩
    · cases rest with
      | nil => exact ⟨d, [], rfl, noWord, noAt⟩
      | cons c rest =>
        have isBlank := blank c (by simp)
        refine ⟨c, rest ++ [d], rfl, isWord_of_isBlank isBlank, ?_⟩
        rintro rfl
        exact absurd isBlank (by decide)
    · rcases cons_eq_append_cons same with ⟨isBreak, _⟩ | ⟨start, same⟩
      · exact absurd isBreak noBreak
      · simp at same

section

variable {before : Option Char} {taken rest opening closing : List Char}

theorem HeaderParts.leadsTo {lead : List Char}
    (parts : HeaderParts family name taken rest opening closing) (isName : IsName family name)
    (leads : Lead family lead) :
    LeadsTo family name (lead ++ (name ++ closing) ++ rest) (closing ++ rest) := by
  refine ⟨⟨lead, leads, by simp⟩, fun c next isChar => ?_⟩
  cases closing with
  | nil =>
    obtain ⟨before, edge⟩ := parts.edge rfl
    rw [lastOf, List.getLast?_eq_some_getLast isName.nonempty, Option.some_or] at edge
    rw [List.getLast?_eq_some_getLast isName.nonempty, ← Option.mem_def.mp next]
    exact edge
  | cons d closing =>
    obtain rfl := Option.some.inj next
    exact absurd isChar (ne_true_of_eq_false (isNameChar_of_closing parts.closes))

theorem HeaderParts.stop_behind (parts : HeaderParts family name taken rest opening closing)
    (isName : IsName family name) (complete : ¬ BreaksName family taken rest) :
    (closing ++ rest).head?.any (isNameChar family) = false := by
  cases closing with
  | nil =>
    refine eq_false_of_ne_true fun starts => complete ⟨?_, starts⟩
    rw [parts.split, List.append_nil, List.getLast?_append,
      List.getLast?_eq_some_getLast isName.nonempty, Option.some_or]
    exact isName.chars _ (List.getLast_mem isName.nonempty)
  | cons d closing => exact isNameChar_of_closing parts.closes

theorem ReadsHeader.leadsTo (h : ReadsHeader family name before taken rest)
    (isName : IsName family name) : ∃ behind, LeadsTo family name (taken ++ rest) behind ∧
      (¬ BreaksName family taken rest → behind.head?.any (isNameChar family) = false) := by
  obtain ⟨opening, closing, parts⟩ := h.parts
  have leads := parts.leadsTo isName parts.opens.lead
  rw [← parts.split] at leads
  exact ⟨closing ++ rest, leads, parts.stop_behind isName⟩

/-- Behind a line break in it, a header still leads to its name, or goes on without a word. -/
theorem ReadsHeader.leadsTo_of_lineBreak {inner more : List Char}
    (h : ReadsHeader family name before (inner ++ '\n' :: more) rest) (notGo : family ≠ .go)
    (isName : IsName family name) :
    (∃ behind, LeadsTo family name (more ++ rest) behind ∧
      (¬ BreaksName family (inner ++ '\n' :: more) rest →
        behind.head?.any (isNameChar family) = false)) ∨
      ∃ c others, more = c :: others ∧ isWord c = false ∧ c ≠ '@' := by
  obtain ⟨opening, closing, parts⟩ := h.parts
  rcases append_eq_append_cons parts.split.symm with
    ⟨lead, isOpening, rfl⟩ | ⟨start, _, same⟩
  · have opens := parts.opens.lead
    rw [isOpening] at opens
    exact .inl ⟨closing ++ rest, parts.leadsTo isName (opens.of_lineBreak notGo),
      parts.stop_behind isName⟩
  · obtain ⟨start, inClosing⟩ := behind_of_append (not_lineBreak_mem_name isName) same
    exact .inr (exists_cons_of_closing notGo (inClosing ▸ parts.closes))

end

end

end PromptPack.Prune
