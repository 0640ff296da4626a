import PromptPack.Proofs.Prune.Name
import PromptPack.Proofs.Transform.ClearedLines
import PromptPack.Proofs.Transform.ClosingTags
import PromptPack.Proofs.Transform.Subsequence

/-! What is left of an element of a markdown text. An opening tag is paired with the first closing tag
of its name, whatever is nested between them. So all that stands inside an element goes if no element
of the same name is nested in it; otherwise what stands behind the first closing tag of the name is
read as though it stood outside. Main statement: `minifyMarkdown_block`. -/

namespace PromptPack.Transform

open Text

/-- An opening tag of the name, with or without attributes, and with no closing tag starting in it.
The name is given in small letters and may be written in any case. -/
def IsOpening (name tag : List Char) : Prop :=
  ∃ written attributes, tag = '<' :: (written ++ (attributes ++ ['>'])) ∧
    written.map lowerChar = name ∧ '>' ∉ attributes ∧ (∀ c ∈ attributes.head?, isBlank c = true) ∧
    ¬ "</".toList <:+: tag

/-- Text in which elements are well nested, with the names of the elements in it. Anything is text in
which no closing tag of an element starts. -/
inductive Forest : List (List Char) → List Char → Prop where
  | nil : Forest [] []
  | text {names : List (List Char)} {c : Char} {cs : List Char}
      (apart : ∀ name ∈ blockNames, ¬ StartsClosing name (c :: cs)) (rest : Forest names cs) :
      Forest names (c :: cs)
  | element {name opening inner closing cs : List Char} {inside names : List (List Char)}
      (known : name ∈ blockNames) (opened : IsOpening name opening) (nested : Forest inside inner)
      (closed : IsClosing name closing) (rest : Forest names cs) :
      Forest (name :: (inside ++ names)) (opening ++ (inner ++ (closing ++ cs)))

/-- What counts as an opening tag of an element and is spelled in this way, with no closing tag of
that spelling behind it. -/
def LeftOpen (other cs : List Char) : Prop :=
  ∃ name written behind, name ∈ blockNames ∧ '<' :: (written ++ behind) <:+ cs ∧
    afterName? name (written ++ behind) = some behind ∧ written.map lowerChar = other ∧
    ∀ inner, afterTag? behind = some inner → ¬ Closes other inner

/-! Names. -/

section

variable {name other written attributes rest cs inner : List Char} {letter c : Char}

def isSmall (c : Char) : Bool := 'a' ≤ c && c ≤ 'z'

theorem isSmall_of_known (known : name ∈ blockNames) : ∀ letter ∈ name, isSmall letter = true := by
  have all : blockNames.all (fun name => name.all isSmall) = true := by decide +kernel
  exact List.all_eq_true.mp (List.all_eq_true.mp all name known)

theorem lowerChar_of_isLetter (same : isLetter letter c = true) :
    lowerChar c = letter ∨ lowerChar c = 'ı' ∨ lowerChar c = 'ſ' := by
  simp only [isLetter, Bool.or_eq_true, Bool.and_eq_true, beq_iff_eq] at same
  rcases same with (same | ⟨-, code⟩) | ⟨-, code⟩
  · exact .inl same
  · rw [← Char.ofNat_toNat c, code]
    exact .inr (.inl (by decide +kernel))
  · rw [← Char.ofNat_toNat c, code]
    exact .inr (.inr (by decide +kernel))

/-- A sign that no letter of a name is read as. -/
def isSign (c : Char) : Bool :=
  !isSmall (lowerChar c) && lowerChar c != 'ı' && lowerChar c != 'ſ'

theorem isLetter_of_isSign (small : isSmall letter = true) (sign : isSign c = true) :
    isLetter letter c = false := by
  simp only [isSign, Bool.and_eq_true, Bool.not_eq_true', bne_iff_ne] at sign
  obtain ⟨⟨large, dotless⟩, long⟩ := sign
  by_contra same
  rcases lowerChar_of_isLetter (by simpa using same) with rfl | same | same
  · rw [small] at large
    cases large
  · exact dotless same
  · exact long same

theorem isSign_of_isBlank (blank : isBlank c = true) : isSign c = true := by
  have all : ∀ n ∈ Prune.blankCodes, isSign (Char.ofNat n) = true := by decide +kernel
  have here := all c.toNat (Prune.toNat_of_isBlank blank)
  rwa [Char.ofNat_toNat] at here

theorem afterName?_append (small : ∀ letter ∈ name, isSmall letter = true) (cs rest : List Char) :
    afterName? name (cs ++ '<' :: rest) = (afterName? name cs).map (· ++ '<' :: rest) := by
  induction name generalizing cs with
  | nil => rfl
  | cons letter name ih =>
    obtain ⟨here, there⟩ := List.forall_mem_cons.mp small
    cases cs with
    | nil =>
      have sign : isSign '<' = true := by decide +kernel
      have none : afterName? (letter :: name) ('<' :: rest) = Option.none := by
        rw [afterName?, isLetter_of_isSign here sign]
        rfl
      exact none
    | cons c cs =>
      rw [List.cons_append, afterName?, afterName?]
      split
      · exact ih there cs
      · rfl

theorem afterName?_written (spelled : written.map lowerChar = name) (cs : List Char) :
    afterName? name (written ++ cs) = some cs := by
  subst spelled
  induction written with
  | nil => rfl
  | cons c written ih =>
    rw [List.map_cons, List.cons_append, afterName?, isLetter, beq_self_eq_true, Bool.true_or,
      Bool.true_or, if_pos rfl]
    exact ih

theorem exists_written (found : afterName? name cs = some rest) :
    ∃ written, cs = written ++ rest ∧ written.length = name.length ∧
      List.Forall₂ (fun letter c => isLetter letter c = true) name written := by
  induction name generalizing cs with
  | nil =>
    obtain rfl := Option.some.inj found
    exact ⟨[], rfl, rfl, .nil⟩
  | cons letter name ih =>
    cases cs with
    | nil => cases found
    | cons c cs =>
      rw [afterName?] at found
      split at found
      · next same =>
        obtain ⟨written, rfl, length, all⟩ := ih found
        exact ⟨c :: written, rfl, congrArg Nat.succ length, .cons same all⟩
      · cases found

theorem unbracketed_of_small (small : ∀ letter ∈ name, isSmall letter = true) :
    Unbracketed name where
  opening member := absurd (small '<' member) (by decide)
  closing member := absurd (small '>' member) (by decide)

theorem unbracketed_of_read (small : ∀ letter ∈ name, isSmall letter = true)
    (all : List.Forall₂ (fun letter c => isLetter letter c = true) name written) :
    Unbracketed (written.map lowerChar) := by
  induction all with
  | nil => exact ⟨List.not_mem_nil, List.not_mem_nil⟩
  | @cons letter c name written same _ ih =>
    obtain ⟨here, there⟩ := List.forall_mem_cons.mp small
    obtain ⟨opening, closing⟩ := ih there
    have other : ∀ d, isSmall d = false → d ≠ 'ı' → d ≠ 'ſ' → d ≠ lowerChar c := by
      rintro d large dotted short rfl
      rcases lowerChar_of_isLetter same with rfl | wrong | wrong
      · rw [here] at large
        cases large
      · exact dotted wrong
      · exact short wrong
    rw [List.map_cons]
    exact ⟨List.not_mem_cons_of_ne_of_not_mem (other '<' (by decide) (by decide) (by decide)) opening,
      List.not_mem_cons_of_ne_of_not_mem (other '>' (by decide) (by decide) (by decide)) closing⟩

/-! Opening tags. -/

theorem afterTag?_append_of_some (ended : afterTag? attributes = some inner) (cs : List Char) :
    afterTag? (attributes ++ cs) = some (inner ++ cs) := by
  unfold afterTag? at ended ⊢
  rw [List.dropWhile_append]
  cases left : attributes.dropWhile (· != '>') with
  | nil => rw [left] at ended; cases ended
  | cons d behind =>
    rw [left] at ended
    obtain rfl := Option.some.inj ended
    rfl

theorem afterTag?_append_of_none (unended : afterTag? attributes = none) (cs : List Char) :
    afterTag? (attributes ++ cs) = afterTag? cs := by
  unfold afterTag? at unended ⊢
  rw [List.dropWhile_append]
  cases left : attributes.dropWhile (· != '>') with
  | nil => rfl
  | cons d behind => rw [left] at unended; cases unended

theorem afterTag?_closing (none : '>' ∉ attributes) (cs : List Char) :
    afterTag? (attributes ++ '>' :: cs) = some cs := by
  have unended : afterTag? attributes = Option.none := by
    unfold afterTag?
    rw [List.dropWhile_eq_nil_iff.mpr]
    intro c member
    simpa using ne_of_mem_of_not_mem member none
  rw [afterTag?_append_of_none unended]
  rfl

theorem isOpening_cons {opening : List Char} (opened : IsOpening name opening)
    (small : ∀ letter ∈ name, isSmall letter = true) :
    ∃ tail, opening = '<' :: tail ∧ (∃ tag, opening = tag ++ ['>']) ∧
      ∀ cs, afterTag? (opening ++ cs) = some cs := by
  obtain ⟨written, attributes, rfl, spelled, none, -, -⟩ := opened
  refine ⟨_, rfl, ⟨'<' :: (written ++ attributes), by simp⟩, fun cs => ?_⟩
  have lower : lowerChar '>' = '>' := rfl
  have noneWritten : '>' ∉ written := fun member =>
    (unbracketed_of_small small).closing (spelled ▸ lower ▸ List.mem_map_of_mem member)
  have noneBefore : '>' ∉ '<' :: (written ++ attributes) := by simp [none, noneWritten]
  have ended := afterTag?_closing noneBefore cs
  simpa using ended

theorem IsOpening.not_closes {opening : List Char} (opened : IsOpening name opening)
    (other : List Char) : ¬ Closes other opening := by
  rintro ⟨_, ⟨written, rfl, -⟩, inside⟩
  obtain ⟨-, -, -, -, -, -, none⟩ := opened
  apply none
  refine List.IsInfix.trans ?_ inside
  rw [List.append_assoc]
  exact (List.prefix_append _ _).isInfix

theorem prefix_of_afterName? (small : ∀ letter ∈ name, isSmall letter = true)
    (smallOther : ∀ letter ∈ other, isSmall letter = true) (spelled : written.map lowerChar = name)
    (ended : ∀ c ∈ attributes.head?, isBlank c = true)
    (found : afterName? other (written ++ (attributes ++ '>' :: cs)) = some rest) :
    other <+: name := by
  induction other generalizing name written with
  | nil => exact List.nil_prefix
  | cons letter other ih =>
    obtain ⟨here, there⟩ := List.forall_mem_cons.mp smallOther
    cases written with
    | nil =>
      cases attributes with
      | nil =>
        rw [List.nil_append, List.nil_append, afterName?,
          isLetter_of_isSign here (by decide +kernel)] at found
        cases found
      | cons d attributes =>
        have sign := isSign_of_isBlank (ended d rfl)
        rw [List.nil_append, List.cons_append, afterName?, isLetter_of_isSign here sign] at found
        cases found
    | cons c written =>
      obtain rfl := spelled
      obtain ⟨smallHere, smallThere⟩ := List.forall_mem_cons.mp small
      rw [List.cons_append, afterName?] at found
      split at found
      · next same =>
        have equal : letter = lowerChar c := by
          rcases lowerChar_of_isLetter same with same | wrong | wrong
          · exact same.symm
          · rw [wrong] at smallHere
            cases smallHere
          · rw [wrong] at smallHere
            cases smallHere
        exact List.cons_prefix_cons.mpr ⟨equal, ih smallThere there rfl found⟩
      · cases found

/-! The pass over the elements. -/

def blockRest? (cs name : List Char) : Option (List Char) := do
  let attributes ← afterName? name cs
  let inner ← afterTag? attributes
  afterElement? (cs.take name.length) inner

theorem map_afterBlock? (cs name : List Char) :
    (afterBlock? cs name).map Subtype.val = blockRest? cs name := by
  unfold afterBlock? blockRest?
  split
  · next missing => rw [missing]; rfl
  · next attributes named =>
    conv => rhs; rw [named]
    dsimp only [Option.bind_eq_bind, Option.bind_some]
    split
    · next missing => rw [missing]; rfl
    · next inner tagged =>
      conv => rhs; rw [tagged]
      dsimp only [Option.bind_some]
      split
      · next missing => rw [missing]; rfl
      · next rest closed => exact closed.symm

theorem map_blockElements (cs : List Char) :
    (blockElements '<' cs).map Subtype.val = blockNames.findSome? (blockRest? cs) := by
  have pass : blockElements '<' cs = blockNames.findSome? (afterBlock? cs) := if_pos rfl
  rw [pass, List.map_findSome?]
  congr 1
  funext name
  exact map_afterBlock? cs name

theorem blockElements_apply_of_some (found : blockNames.findSome? (blockRest? cs) = some rest) :
    blockElements.apply ('<' :: cs) = blockElements.apply rest := by
  rw [← map_blockElements] at found
  obtain ⟨⟨rest, suffix⟩, taken, rfl⟩ := Option.map_eq_some_iff.mp found
  exact Removal.apply_cons_of_some suffix taken

theorem blockElements_apply_of_none (missing : blockNames.findSome? (blockRest? cs) = none) :
    blockElements.apply ('<' :: cs) = '<' :: blockElements.apply cs := by
  rw [← map_blockElements, Option.map_eq_none_iff] at missing
  exact Removal.apply_cons_of_none missing

theorem blockElements_apply_of_ne (other : c ≠ '<') (cs : List Char) :
    blockElements.apply (c :: cs) = c :: blockElements.apply cs :=
  Removal.apply_cons_of_none (if_neg other)

/-- No name that is tried in front of another is the start of it. -/
theorem exists_names_before (known : name ∈ blockNames) :
    ∃ before after, blockNames = before ++ name :: after ∧ ∀ other ∈ before, ¬ other <+: name := by
  refine ⟨blockNames.takeWhile (· ≠ name),
    blockNames.drop (blockNames.takeWhile (· ≠ name)).length.succ, ?_⟩
  revert name
  decide +kernel

theorem blockElements_apply_opening {opening : List Char} (known : name ∈ blockNames)
    (opened : IsOpening name opening) (none : ¬ Closes name inner) {tag : List Char}
    (closing : IsClosing name tag) (rest : List Char) :
    blockElements.apply (opening ++ (inner ++ (tag ++ rest))) = blockElements.apply rest := by
  have small := isSmall_of_known known
  obtain ⟨written, attributes, rfl, spelled, unended, ended, -⟩ := opened
  have length : written.length = name.length := by rw [← spelled, List.length_map]
  have whole : '<' :: (written ++ (attributes ++ ['>'])) ++ (inner ++ (tag ++ rest)) =
      '<' :: (written ++ (attributes ++ '>' :: (inner ++ (tag ++ rest)))) := by simp
  have closed : afterElement? written (inner ++ (tag ++ rest)) = some rest := by
    subst spelled
    exact afterElement?_first (unbracketed_of_small small) none closing rest
  rw [whole]
  apply blockElements_apply_of_some
  obtain ⟨before, after, split, earlier⟩ := exists_names_before known
  refine List.findSome?_eq_some_iff.mpr ⟨before, name, after, split, ?_, ?_⟩
  · rw [blockRest?, afterName?_written spelled]
    dsimp only [Option.bind_eq_bind, Option.bind_some]
    rw [afterTag?_closing unended, List.take_left' length]
    exact closed
  · intro other listed
    have knownOther : other ∈ blockNames := split ▸ List.mem_append_left _ listed
    cases found : afterName? other (written ++ (attributes ++ '>' :: (inner ++ (tag ++ rest)))) with
    | none => rw [blockRest?, found]; rfl
    | some rest =>
      exact absurd (prefix_of_afterName? small (isSmall_of_known knownOther) spelled ended found)
        (earlier other listed)

end

/-! What stands in an element in front of the first closing tag of its name. -/

section

variable {pre whole part : List Char}

theorem LeftOpen.mono {other cs rest : List Char} (open_ : LeftOpen other cs) (suffix : cs <:+ rest) :
    LeftOpen other rest := by
  obtain ⟨name, written, behind, known, start, read, spelled, none⟩ := open_
  exact ⟨name, written, behind, known, start.trans suffix, read, spelled, none⟩

/-- The same is left of two texts, or they go on differently behind the same text. -/
def Alike (pre whole part : List Char) (a b : Option (List Char)) : Prop :=
  a = b ∨ ∃ rest, rest <:+ pre ∧ a = some (rest ++ whole) ∧ b = some (rest ++ part)

theorem alike_findSome? {f g : List Char → Option (List Char)} {names : List (List Char)}
    (alike : ∀ name ∈ names, Alike pre whole part (f name) (g name)) :
    Alike pre whole part (names.findSome? f) (names.findSome? g) := by
  induction names with
  | nil => exact .inl rfl
  | cons name names ih =>
    obtain ⟨here, there⟩ := List.forall_mem_cons.mp alike
    rw [List.findSome?_cons, List.findSome?_cons]
    rcases here with same | ⟨rest, suffix, first, second⟩
    · rw [same]
      cases g name with
      | none => exact ih there
      | some rest => exact .inl rfl
    · rw [first, second]
      exact .inr ⟨rest, suffix, rfl, rfl⟩

end

section

variable {name opening front behind tag rest pre : List Char}

theorem afterElement?_opening {written inner inside : List Char} (plain : Unbracketed (written.map lowerChar))
    (known : name ∈ blockNames) (opened : IsOpening name opening) (closing : IsClosing name tag)
    (none : ¬ Closes (written.map lowerChar) inner)
    (noneInside : ¬ Closes (written.map lowerChar) inside) (rest : List Char) :
    afterElement? written (inner ++ (opening ++ (inside ++ (tag ++ rest)))) =
      afterElement? written (tag ++ rest) := by
  have small := isSmall_of_known known
  obtain ⟨tail, opening_eq, ends, -⟩ := isOpening_cons opened small
  obtain ⟨tagTail, rfl, -⟩ := closing.exists_start (unbracketed_of_small small)
  have unclosed : ¬ Closes (written.map lowerChar) (inner ++ (opening ++ inside)) := by
    rw [closes_append_of_start plain ⟨tail ++ inside, by simp [opening_eq]⟩,
      closes_append_of_end plain ends]
    simp [none, opened.not_closes, noneInside]
  have passed := afterElement?_append plain unclosed (tagTail ++ rest)
  simpa using passed

/-- What an opening tag in front is paired with is the same in either text, or stands in front too. -/
theorem alike_blockRest? (known : name ∈ blockNames) (opened : IsOpening name opening)
    (closing : IsClosing name tag)
    (apart : ∀ other, LeftOpen other ('<' :: pre) → ¬ Closes other front) (rest : List Char)
    {other : List Char} (knownOther : other ∈ blockNames) :
    Alike pre (opening ++ (front ++ (tag ++ rest))) (opening ++ (tag ++ rest))
      (blockRest? (pre ++ (opening ++ (front ++ (tag ++ rest)))) other)
      (blockRest? (pre ++ (opening ++ (tag ++ rest))) other) := by
  have smallOther := isSmall_of_known knownOther
  obtain ⟨tail, opening_eq, -, ended⟩ := isOpening_cons opened (isSmall_of_known known)
  have named : ∀ cs, afterName? other (pre ++ (opening ++ cs)) =
      (afterName? other pre).map (· ++ (opening ++ cs)) := by
    intro cs
    rw [opening_eq]
    exact afterName?_append smallOther pre _
  unfold blockRest?
  rw [named, named]
  cases read : afterName? other pre with
  | none => exact .inl rfl
  | some attributes =>
    obtain ⟨written, rfl, length, all⟩ := exists_written read
    have plain := unbracketed_of_read smallOther all
    have spelled : ∀ cs, (written ++ attributes ++ cs).take other.length = written := by
      intro cs
      rw [List.append_assoc, List.take_left' length]
    have unclosed : (∀ inner, afterTag? attributes = some inner →
        ¬ Closes (written.map lowerChar) inner) → ¬ Closes (written.map lowerChar) front :=
      fun free => apart _ ⟨other, written, attributes, knownOther, List.suffix_rfl, read, rfl, free⟩
    dsimp only [Option.map_some, Option.bind_eq_bind, Option.bind_some]
    rw [spelled, spelled]
    cases tagged : afterTag? attributes with
    | none =>
      have free := unclosed fun inner found => by rw [tagged] at found; cases found
      obtain ⟨tagTail, rfl, -⟩ := closing.exists_start (unbracketed_of_small (isSmall_of_known known))
      rw [afterTag?_append_of_none tagged, afterTag?_append_of_none tagged, ended, ended]
      exact .inl (afterElement?_append plain free _)
    | some inner =>
      rw [afterTag?_append_of_some tagged, afterTag?_append_of_some tagged]
      dsimp only [Option.bind_some]
      by_cases closes : Closes (written.map lowerChar) inner
      · obtain ⟨left, suffix, found⟩ := exists_afterElement? plain closes
        refine .inr ⟨left, ?_, found _, found _⟩
        exact (suffix.trans (suffix_of_afterTag? tagged)).trans (List.suffix_append written _)
      · have free := unclosed fun again found => by
          rw [tagged] at found
          exact Option.some.inj found ▸ closes
        have short := afterElement?_opening plain known opened closing closes (not_closes_nil _) rest
        exact .inl ((afterElement?_opening plain known opened closing closes free rest).trans short.symm)

/-- In front of the first closing tag of its name nothing in an element counts. -/
theorem blockElements_apply_front (known : name ∈ blockNames) (opened : IsOpening name opening)
    (none : ¬ Closes name front) (closing : IsClosing name tag)
    (apart : ∀ other, LeftOpen other pre → ¬ Closes other front) (rest : List Char) :
    blockElements.apply (pre ++ (opening ++ (front ++ (tag ++ rest)))) =
      blockElements.apply (pre ++ (opening ++ (tag ++ rest))) := by
  -- What goes in front of the element leaves a shorter text there, not the tail.
  induction size : pre.length using Nat.strongRecOn generalizing pre with
  | ind n ih =>
    cases pre with
    | nil =>
      have first := blockElements_apply_opening known opened (not_closes_nil name) closing rest
      rw [List.nil_append, List.nil_append, blockElements_apply_opening known opened none closing]
      exact first.symm
    | cons c pre =>
      rw [List.length_cons] at size
      have shorter : ∀ left, left <:+ pre →
          blockElements.apply (left ++ (opening ++ (front ++ (tag ++ rest)))) =
            blockElements.apply (left ++ (opening ++ (tag ++ rest))) := by
        intro left suffix
        have := suffix.length_le
        exact ih left.length (by omega)
          (fun other left => apart other (left.mono (suffix.trans (List.suffix_cons c pre)))) rfl
      rw [List.cons_append, List.cons_append]
      by_cases bracket : c = '<'
      · subst bracket
        have alike := alike_findSome? fun other knownOther =>
          alike_blockRest? known opened closing apart rest knownOther
        rcases alike with same | ⟨left, suffix, first, second⟩
        · cases found : blockNames.findSome?
              (blockRest? (pre ++ (opening ++ (tag ++ rest)))) with
          | none =>
            rw [blockElements_apply_of_none (same.trans found), blockElements_apply_of_none found,
              shorter pre List.suffix_rfl]
          | some left =>
            rw [blockElements_apply_of_some (same.trans found), blockElements_apply_of_some found]
        · rw [blockElements_apply_of_some first, blockElements_apply_of_some second,
            shorter left suffix]
      · rw [blockElements_apply_of_ne bracket, blockElements_apply_of_ne bracket,
          shorter pre List.suffix_rfl]

end

/-! Well-nested text. -/

section

variable {name cs : List Char} {names : List (List Char)}

theorem Forest.closes_iff (forest : Forest names cs) (known : name ∈ blockNames) :
    Closes name cs ↔ name ∈ names := by
  have plain := unbracketed_of_small (isSmall_of_known known)
  induction forest with
  | nil => simp [not_closes_nil]
  | text apart _ ih => exact closes_cons_iff.trans ((or_iff_right (apart name known)).trans ih)
  | element knownOther opened _ closed _ inside behind =>
    have small := isSmall_of_known knownOther
    have plainOther := unbracketed_of_small small
    obtain ⟨-, -, ends, -⟩ := isOpening_cons opened small
    obtain ⟨tail, starts, -⟩ := closed.exists_start plainOther
    obtain ⟨front, endsToo, -⟩ := closed.exists_end plainOther
    rw [closes_append_of_end plain ends, closes_append_of_start plain ⟨_, by rw [starts]; rfl⟩,
      closes_append_of_end plain ⟨front, endsToo⟩, closed.closes_iff plainOther plain,
      or_iff_right (opened.not_closes name), List.mem_cons, List.mem_append, or_left_comm]
    exact or_congr_right (or_congr inside behind)

/-- The inside of an element is cut in front of its first closing tag, which may be the one behind it. -/
theorem Forest.exists_first_closing {inner closing : List Char} (nested : Forest names inner)
    (known : name ∈ blockNames) (closed : IsClosing name closing) :
    ∃ front tag rest, inner ++ closing = front ++ (tag ++ rest) ∧ IsClosing name tag ∧
      ¬ Closes name front ∧ front <:+: inner ∧ (tag ++ rest = closing ↔ name ∉ names) := by
  rw [← nested.closes_iff known]
  by_cases again : Closes name inner
  · obtain ⟨front, tag, rest, rfl, closes, none⟩ := Transform.exists_first_closing again
    refine ⟨front, tag, rest ++ closing, by simp, closes, none,
      (List.prefix_append front _).isInfix, iff_of_false ?_ (not_not_intro again)⟩
    intro same
    obtain ⟨tail, start, -⟩ := closes.exists_start (unbracketed_of_small (isSmall_of_known known))
    have lengths := congrArg List.length same
    rw [start] at lengths
    simp only [List.length_append, List.length_cons] at lengths
    omega
  · exact ⟨inner, closing, [], by simp, closed, again, List.infix_rfl, by simp [again]⟩

end

/-! The passes together. -/

/-- The text without badges and comments, which go first. -/
def withoutAsides (cs : List Char) : List Char := htmlComments.apply (badges.apply cs)

def reduceElements (stripHeadings stripQuotes : Bool) (cs : List Char) : List Char :=
  trim (clearLines (cleared stripHeadings stripQuotes)
    (collapseBreaks (tags.apply (voidElements.apply (blockElements.apply cs)))))

theorem minifyMarkdown_eq_reduceElements (stripHeadings stripQuotes : Bool) (cs : List Char) :
    minifyMarkdown stripHeadings stripQuotes cs =
      reduceElements stripHeadings stripQuotes (withoutAsides cs) :=
  minifyMarkdown_eq stripHeadings stripQuotes cs

theorem reduceElements_sublist (stripHeadings stripQuotes : Bool) (cs : List Char) :
    (reduceElements stripHeadings stripQuotes cs).Sublist cs := by
  unfold reduceElements
  calc trim _ |>.Sublist (clearLines _ _) := trim_sublist _
    _ |>.Sublist (collapseBreaks _) := clearLines_sublist _ _
    _ |>.Sublist (tags.apply _) := collapseBreaks_sublist _
    _ |>.Sublist (voidElements.apply _) := tags.apply_sublist _
    _ |>.Sublist (blockElements.apply cs) := voidElements.apply_sublist _
    _ |>.Sublist cs := blockElements.apply_sublist cs

/-- What stands inside an element in front of the first closing tag of its name leaves nothing: the
text is reduced as though the element started with that tag. This is all that stands inside exactly
if no element of the same name is nested in it. (An element that is left open in front of this one
and closed inside would end in the middle of it.) -/
theorem minifyMarkdown_block {name opening inner closing pre post cs : List Char}
    {names : List (List Char)} (known : name ∈ blockNames) (opened : IsOpening name opening)
    (nested : Forest names inner) (closed : IsClosing name closing)
    (text : withoutAsides cs = pre ++ (opening ++ (inner ++ closing)) ++ post)
    (apart : ∀ other, LeftOpen other pre → Closes other inner → other = name)
    (stripHeadings stripQuotes : Bool) :
    ∃ front behind, inner ++ closing = front ++ behind ∧ StartsClosing name behind ∧
      ¬ Closes name front ∧ (behind = closing ↔ name ∉ names) ∧
      minifyMarkdown stripHeadings stripQuotes cs =
        reduceElements stripHeadings stripQuotes (pre ++ (opening ++ behind) ++ post) ∧
      (minifyMarkdown stripHeadings stripQuotes cs).Sublist (pre ++ (opening ++ behind) ++ post) := by
  obtain ⟨front, tag, rest, split, closes, none, inside, whole⟩ :=
    nested.exists_first_closing known closed
  have apartFront : ∀ other, LeftOpen other pre → ¬ Closes other front := by
    intro other left closesFront
    obtain rfl := apart other left (closesFront.mono inside)
    exact none closesFront
  have same : minifyMarkdown stripHeadings stripQuotes cs =
      reduceElements stripHeadings stripQuotes (pre ++ (opening ++ (tag ++ rest)) ++ post) := by
    rw [minifyMarkdown_eq_reduceElements, text, split]
    unfold reduceElements
    have blocks := blockElements_apply_front known opened none closes apartFront (rest ++ post)
    simp only [List.append_assoc] at blocks ⊢
    rw [blocks]
  exact ⟨front, tag ++ rest, split, closes.startsClosing rest, none, whole, same,
    same ▸ reduceElements_sublist _ _ _⟩

theorem Forest.append_text {cs : List Char} {names : List (List Char)} (part : List Char)
    (none : '<' ∉ part) (forest : Forest names cs) : Forest names (part ++ cs) := by
  induction part with
  | nil => exact forest
  | cons c part ih =>
    refine .text ?_ (ih (List.not_mem_of_not_mem_cons none))
    rintro name known ⟨tag, closing, start⟩
    have plain := unbracketed_of_small (isSmall_of_known known)
    obtain ⟨tail, rfl, -⟩ := closing.exists_start plain
    obtain ⟨rfl, -⟩ := List.cons_prefix_cons.mp start
    exact none List.mem_cons_self

def mixedInside : List Char :=
  ['a'] ++ ("<table>".toList ++ (['\n'] ++ ("<Td>".toList ++ (['b'] ++ ("</TD>".toList ++ []))) ++
    ("</table>".toList ++ ['d'])))

/-- They stand in an element with an attribute, behind a tag that nothing closes; there is a badge in
front of it and a comment in it. -/
def mixedText : List Char :=
  "<tr>[![b](i)](l) <DIV class=x>a<table>\n<Td>b<!-- </div> --></TD></table>d</Div>e".toList

theorem forest_mixedInside : Forest ["table".toList, "td".toList] mixedInside := by
  have row : IsOpening "table".toList "<table>".toList :=
    ⟨"table".toList, [], by decide +kernel, by decide +kernel, by decide, nofun, by decide +kernel⟩
  have rowEnd : IsClosing "table".toList "</table>".toList :=
    ⟨"table".toList, by decide +kernel, by decide +kernel⟩
  have cell : IsOpening "td".toList "<Td>".toList :=
    ⟨"Td".toList, [], by decide +kernel, by decide +kernel, by decide, nofun, by decide +kernel⟩
  have cellEnd : IsClosing "td".toList "</TD>".toList :=
    ⟨"TD".toList, by decide +kernel, by decide +kernel⟩
  have cells : Forest ["td".toList]
      (['\n'] ++ ("<Td>".toList ++ (['b'] ++ ("</TD>".toList ++ [])))) :=
    .append_text _ (by decide) (.element (by decide +kernel) cell
      (.append_text ['b'] (by decide) .nil) cellEnd .nil)
  have rows := Forest.element (by decide +kernel) row cells rowEnd
    (.append_text ['d'] (by decide) .nil)
  exact .append_text ['a'] (by decide) rows

theorem eq_of_leftOpen {other : List Char} (left : LeftOpen other "<tr> ".toList) :
    other = "tr".toList := by
  have whole : "<tr> ".toList = '<' :: "tr> ".toList := by decide +kernel
  obtain ⟨name, written, behind, known, start, read, rfl, -⟩ := left
  have only : written ++ behind = "tr> ".toList := by
    rw [whole] at start
    rcases List.suffix_cons_iff.mp start with same | inside
    · exact (List.cons.inj same).2
    · exact absurd (inside.subset List.mem_cons_self) (by decide +kernel)
  have named : ∀ name ∈ blockNames, ∀ behind ∈ afterName? name "tr> ".toList,
      behind = "> ".toList := by decide +kernel
  have split : "tr> ".toList = "tr".toList ++ "> ".toList := by decide +kernel
  rw [only] at read
  rw [named name known behind read, split] at only
  rw [List.append_cancel_right only]
  decide +kernel

theorem minifyMarkdown_block_mixedNames :
    "div".toList ∈ blockNames ∧ IsOpening "div".toList "<DIV class=x>".toList ∧
      Forest ["table".toList, "td".toList] mixedInside ∧
      IsClosing "div".toList "</Div>".toList ∧
      withoutAsides mixedText = "<tr> ".toList ++
        ("<DIV class=x>".toList ++ (mixedInside ++ "</Div>".toList)) ++ ['e'] ∧
      (∀ other, LeftOpen other "<tr> ".toList → Closes other mixedInside →
        other = "div".toList) ∧
      ∃ front behind, mixedInside ++ "</Div>".toList = front ++ behind ∧
        StartsClosing "div".toList behind ∧ ¬ Closes "div".toList front ∧
        (behind = "</Div>".toList ↔ "div".toList ∉ ["table".toList, "td".toList]) ∧
        minifyMarkdown false false mixedText = reduceElements false false
          ("<tr> ".toList ++ ("<DIV class=x>".toList ++ behind) ++ ['e']) ∧
        (minifyMarkdown false false mixedText).Sublist
          ("<tr> ".toList ++ ("<DIV class=x>".toList ++ behind) ++ ['e']) := by
  have known : "div".toList ∈ blockNames := by decide +kernel
  have opened : IsOpening "div".toList "<DIV class=x>".toList :=
    ⟨"DIV".toList, ' ' :: "class=x".toList, by decide +kernel, by decide +kernel, by decide +kernel,
      by rintro _ ⟨⟩; rfl, by decide +kernel⟩
  have closed : IsClosing "div".toList "</Div>".toList :=
    ⟨"Div".toList, by decide +kernel, by decide +kernel⟩
  have text : withoutAsides mixedText = "<tr> ".toList ++
      ("<DIV class=x>".toList ++ (mixedInside ++ "</Div>".toList)) ++ ['e'] := by decide +kernel
  have apart : ∀ other, LeftOpen other "<tr> ".toList → Closes other mixedInside →
      other = "div".toList := by
    intro other left closes
    rw [eq_of_leftOpen left] at closes
    exact absurd ((forest_mixedInside.closes_iff (by decide +kernel)).mp closes) (by decide +kernel)
  exact ⟨known, opened, forest_mixedInside, closed, text, apart,
    minifyMarkdown_block known opened forest_mixedInside closed text apart false false⟩

theorem minifyMarkdown_keeps_inside :
    IsOpening "div".toList "<div>".toList ∧ IsClosing "div".toList "</div>".toList ∧
      Forest ["div".toList] (['a'] ++ ("<div>".toList ++ (['b'] ++ ("</div>".toList ++ ['c'])))) ∧
      minifyMarkdown false false ("<div>".toList ++
        (['a'] ++ ("<div>".toList ++ (['b'] ++ ("</div>".toList ++ ['c']))) ++ "</div>".toList)) =
          ['c'] := by
  have opened : IsOpening "div".toList "<div>".toList :=
    ⟨"div".toList, [], by decide +kernel, by decide +kernel, by decide, nofun, by decide +kernel⟩
  have closed : IsClosing "div".toList "</div>".toList :=
    ⟨"div".toList, by decide +kernel, by decide +kernel⟩
  have nested : Forest ["div".toList] ("<div>".toList ++ (['b'] ++ ("</div>".toList ++ ['c']))) :=
    .element (by decide +kernel) opened (.append_text ['b'] (by decide) .nil) closed
      (.append_text ['c'] (by decide) .nil)
  exact ⟨opened, closed, .append_text ['a'] (by decide) nested, by decide +kernel⟩

end PromptPack.Transform
