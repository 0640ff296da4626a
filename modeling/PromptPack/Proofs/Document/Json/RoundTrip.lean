import PromptPack.Proofs.Document.Json.Scalars
import PromptPack.Proofs.Document.Plain
import PromptPack.Proofs.Numeric.IntegerText

/-! Every plain value is written as JSON, and its text is read back as the value. A text is shown to
be read whatever follows it, so that it may stand inside a list or an object. Main statement:
`read_write`. -/

namespace PromptPack.Json

open IntegerText (maxDigits)

variable {cs rest : List Char} {v : Value}

/-- A text that is read as the value. It starts neither with white space nor with a closing bracket,
and has no line break that could be read as another one. -/
structure Spells (cs : List Char) (v : Value) : Prop where
  starts : ∃ c more, cs = c :: more ∧ isSpace c = false ∧ c ≠ ']'
  noReturn : '\r' ∉ cs
  reads : ∀ {fuel rest}, cs.length ≤ fuel → endsNumber rest = true →
    readValue fuel (cs ++ rest) = .ok (v, rest)

theorem skipSpaces_of_starts {c : Char} (solid : isSpace c = false) :
    skipSpaces (c :: cs) = c :: cs := by
  rw [skipSpaces, List.dropWhile_cons, solid, if_neg Bool.false_ne_true]

theorem skipSpaces_indent (level : Nat) (cs : List Char) :
    skipSpaces (indent level ++ cs) = skipSpaces cs := by
  have blank : ∀ c ∈ indent level, isSpace c = true := by
    intro c member
    rcases List.mem_cons.mp member with rfl | member
    · rfl
    · rw [List.eq_of_mem_replicate member]
      rfl
  exact List.dropWhile_append_of_pos blank

theorem not_return_mem_indent (level : Nat) : '\r' ∉ indent level := by
  simp [indent]

theorem Spells.skipSpaces_append (h : Spells cs v) (rest : List Char) :
    skipSpaces (cs ++ rest) = cs ++ rest := by
  obtain ⟨c, more, rfl, solid, _⟩ := h.starts
  exact skipSpaces_of_starts solid

theorem spells_of_word (key : String) {c : Char} {more : List Char} (word : key.toList = c :: more)
    (solid : isSpace c = false) (other : c ≠ ']') (noReturn : '\r' ∉ key.toList)
    (dispatch : ∀ fuel cs, readValue (fuel + 1) (c :: cs) = readWord key v (c :: cs)) :
    Spells key.toList v where
  starts := ⟨c, more, word, solid, other⟩
  noReturn := noReturn
  reads := by
    intro fuel rest enough _
    have some : 0 < fuel := Nat.lt_of_lt_of_le (word ▸ Nat.succ_pos _) enough
    obtain ⟨fuel, rfl⟩ := Nat.exists_eq_add_one_of_ne_zero (Nat.ne_of_gt some)
    rw [word, List.cons_append, dispatch, ← List.cons_append, ← word, readWord, if_pos,
      ← String.length_toList, List.drop_left]
    exact List.isPrefixOf_iff_prefix.mpr (List.prefix_append _ _)

theorem isSpace_of_isDigit {c : Char} (digit : c.isDigit = true) : isSpace c = false := by
  rw [Bool.eq_false_iff]
  intro blank
  simp only [isSpace, Bool.or_eq_true, beq_iff_eq] at blank
  rcases blank with ((rfl | rfl) | rfl) | rfl <;> cases digit

theorem spells_int {n : Int} (few : n.natAbs < 10 ^ maxDigits) :
    Spells (toString n).toList (.int n) where
  starts := by
    obtain ⟨c, ds, digits⟩ :=
      List.exists_cons_of_ne_nil (Nat.toDigits_ne_nil (b := 10) (n := n.natAbs))
    have digit : c.isDigit = true :=
      Nat.isDigit_of_mem_toDigits (by decide) (by decide) (digits ▸ List.mem_cons_self)
    rw [toList_toString]
    split
    · exact ⟨'-', _, rfl, rfl, by decide⟩
    · refine ⟨c, ds, digits, isSpace_of_isDigit digit, ?_⟩
      rintro rfl
      cases digit
  noReturn := by
    have digits : '\r' ∉ Nat.toDigits 10 n.natAbs := fun member => by
      have digit := Nat.isDigit_of_mem_toDigits (by decide) (by decide) member
      cases digit
    rw [toList_toString]
    split
    · simpa using digits
    · exact digits
  reads := by
    intro fuel rest enough ended
    have some : 0 < (toString n).toList.length := by
      rw [toList_toString]
      split
      · exact Nat.succ_pos _
      · exact Nat.length_toDigits_pos
    obtain ⟨fuel, rfl⟩ := Nat.exists_eq_add_one_of_ne_zero (Nat.ne_of_gt (Nat.lt_of_lt_of_le some enough))
    exact readValue_integer few ended

theorem spells_emptyList : Spells ['[', ']'] (.list []) where
  starts := ⟨'[', _, rfl, rfl, by decide⟩
  noReturn := by decide
  reads := by
    intro fuel rest enough _
    obtain ⟨fuel, rfl⟩ := Nat.exists_eq_add_one_of_ne_zero (Nat.ne_of_gt (Nat.lt_of_lt_of_le Nat.two_pos enough))
    rfl

theorem spells_emptyMap : Spells ['\x7b', '\x7d'] (.map (Value.named [])) where
  starts := ⟨'\x7b', _, rfl, rfl, by decide⟩
  noReturn := by decide
  reads := by
    intro fuel rest enough _
    obtain ⟨fuel, rfl⟩ := Nat.exists_eq_add_one_of_ne_zero (Nat.ne_of_gt (Nat.lt_of_lt_of_le Nat.two_pos enough))
    rfl

theorem spells_text (s : String) : Spells (textChars s) (.text s) where
  starts := ⟨'"', _, rfl, rfl, by decide⟩
  noReturn := by
    simp only [textChars, List.mem_append, List.mem_cons, List.mem_flatMap]
    rintro ((quote | ⟨c, _, escaped⟩) | quote | none)
    · cases quote
    · exact not_return_mem_escapeChar c escaped
    · cases quote
    · cases none
  reads := by
    intro fuel rest enough _
    have some : 0 < fuel := Nat.lt_of_lt_of_le (Nat.succ_pos _) enough
    obtain ⟨fuel, rfl⟩ := Nat.exists_eq_add_one_of_ne_zero (Nat.ne_of_gt some)
    have length := length_le_flatMap_escapeChar s.toList
    have text : textChars s ++ rest = '"' :: (s.toList.flatMap escapeChar ++ '"' :: rest) := by
      simp [textChars]
    rw [text]
    simp only [readValue]
    rw [readText_textChars (by rw [List.length_append, List.length_cons]; omega), List.reverse_nil,
      List.nil_append, String.ofList_toList]
    rfl

structure SpellsItems (cs : List Char) (items : List Value) : Prop where
  starts : ∀ rest, ∃ c more, skipSpaces (cs ++ rest) = c :: more ∧ c ≠ ']'
  noReturn : '\r' ∉ cs
  reads : ∀ {fuel level seen rest}, cs.length ≤ fuel →
    readItems fuel seen (skipSpaces (cs ++ (indent level ++ ']' :: rest))) =
      .ok (.list (seen.reverse ++ items), rest)

section Lists

variable {first more : List Char} {item : Value} {items : List Value} {level : Nat}

theorem Spells.starts_indent (h : Spells first item) (level : Nat) (rest : List Char) :
    ∃ c more, skipSpaces (indent level ++ first ++ rest) = c :: more ∧ c ≠ ']' := by
  obtain ⟨c, more, start, _, other⟩ := h.starts
  rw [List.append_assoc, skipSpaces_indent, h.skipSpaces_append, start]
  exact ⟨c, more ++ rest, rfl, other⟩

theorem Spells.spellsItems_single (h : Spells first item) :
    SpellsItems (indent level ++ first) [item] where
  starts := h.starts_indent level
  noReturn := by
    rw [List.mem_append, not_or]
    exact ⟨not_return_mem_indent level, h.noReturn⟩
  reads := by
    intro fuel closing seen rest enough
    rw [List.length_append, indent, List.length_cons] at enough
    obtain ⟨fuel, rfl⟩ := Nat.exists_eq_add_one_of_ne_zero (show fuel ≠ 0 by omega)
    rw [List.append_assoc, skipSpaces_indent, h.skipSpaces_append, readItems,
      h.reads (by omega) rfl]
    dsimp only
    rw [skipSpaces_indent, skipSpaces_of_starts rfl, List.reverse_cons]
    rfl

theorem Spells.spellsItems_cons (h : Spells first item) (others : SpellsItems more items) :
    SpellsItems (indent level ++ first ++ ',' :: more) (item :: items) where
  starts := by
    intro rest
    rw [List.append_assoc]
    exact h.starts_indent level _
  noReturn := by
    simp only [List.mem_append, List.mem_cons, not_or]
    exact ⟨⟨not_return_mem_indent level, h.noReturn⟩, by decide, others.noReturn⟩
  reads := by
    intro fuel closing seen rest enough
    rw [List.length_append, List.length_append, indent, List.length_cons, List.length_cons] at enough
    obtain ⟨fuel, rfl⟩ := Nat.exists_eq_add_one_of_ne_zero (show fuel ≠ 0 by omega)
    rw [List.append_assoc, List.append_assoc, List.cons_append, skipSpaces_indent,
      h.skipSpaces_append, readItems, h.reads (by omega) rfl]
    dsimp only
    rw [skipSpaces_of_starts rfl]
    refine (others.reads (by omega)).trans ?_
    rw [List.reverse_cons, List.append_assoc, List.singleton_append]

theorem exists_writeItems (nonempty : items ≠ [])
    (all : ∀ item ∈ items, ∀ level, ∃ cs, writeValue level item = .ok cs ∧ Spells cs item)
    (level : Nat) : ∃ cs, writeItems level items = .ok cs ∧ SpellsItems cs items := by
  induction items with
  | nil => exact absurd rfl nonempty
  | cons item items ih =>
    obtain ⟨here, there⟩ := List.forall_mem_cons.mp all
    obtain ⟨first, written, spelled⟩ := here level
    cases items with
    | nil => exact ⟨_, by rw [writeItems, written]; rfl, spelled.spellsItems_single⟩
    | cons next items =>
      obtain ⟨more, rest, others⟩ := ih (List.cons_ne_nil next items) there
      refine ⟨indent level ++ first ++ ',' :: more, ?_, spelled.spellsItems_cons others⟩
      rw [writeItems, written, rest]
      · rfl
      · exact List.cons_ne_nil next items

theorem SpellsItems.spells (h : SpellsItems cs items) (level : Nat) :
    Spells ('[' :: cs ++ indent level ++ [']']) (.list items) where
  starts := ⟨'[', _, rfl, rfl, by decide⟩
  noReturn := by
    simp only [List.mem_append, List.mem_cons, not_or]
    exact ⟨⟨⟨by decide, h.noReturn⟩, not_return_mem_indent level⟩, by decide, List.not_mem_nil⟩
  reads := by
    intro fuel rest enough _
    rw [List.length_append, List.length_append, List.length_cons] at enough
    obtain ⟨fuel, rfl⟩ := Nat.exists_eq_add_one_of_ne_zero (show fuel ≠ 0 by omega)
    have text : '[' :: cs ++ indent level ++ [']'] ++ rest =
        '[' :: (cs ++ (indent level ++ ']' :: rest)) := by simp
    obtain ⟨c, more, start, other⟩ := h.starts (indent level ++ ']' :: rest)
    rw [text]
    simp only [readValue]
    split
    · next closed =>
      rw [start] at closed
      exact absurd (List.cons.inj closed).1 other
    · exact h.reads (by omega)

end Lists

/-- The fields of an object, each on a line of its own; they are put behind fields of other names. -/
structure SpellsFields (cs : List Char) (fields : List (String × Value)) : Prop where
  starts : ∀ rest, ∃ more, skipSpaces (cs ++ rest) = '"' :: more
  noReturn : '\r' ∉ cs
  reads : ∀ {fuel level seen rest}, cs.length ≤ fuel →
    ((seen ++ fields).map Prod.fst).Nodup →
    readEntries fuel (Value.named seen) (skipSpaces (cs ++ (indent level ++ '\x7d' :: rest))) =
      .ok (.map (Value.named (seen ++ fields)), rest)

section Objects

variable {first more : List Char} {name : String} {value : Value}
  {fields : List (String × Value)} {level : Nat}

def fieldChars (level : Nat) (name : String) (cs : List Char) : List Char :=
  indent level ++ textChars name ++ ':' :: ' ' :: cs

theorem not_return_mem_fieldChars (h : Spells first value) :
    '\r' ∉ fieldChars level name first := by
  simp only [fieldChars, List.mem_append, List.mem_cons, not_or]
  exact ⟨⟨not_return_mem_indent level, (spells_text name).noReturn⟩, by decide, by decide,
    h.noReturn⟩

theorem skipSpaces_fieldChars (level : Nat) (name : String) (cs rest : List Char) :
    skipSpaces (fieldChars level name cs ++ rest) =
      '"' :: (name.toList.flatMap escapeChar ++ '"' :: ':' :: ' ' :: (cs ++ rest)) := by
  have text : fieldChars level name cs ++ rest = indent level ++
      ('"' :: (name.toList.flatMap escapeChar ++ '"' :: ':' :: ' ' :: (cs ++ rest))) := by
    simp [fieldChars, textChars]
  rw [text, skipSpaces_indent, skipSpaces_of_starts rfl]

def afterField (fuel : Nat) (entries : List (Value × Value)) (rest : List Char) : Read Value :=
  match skipSpaces rest with
  | ',' :: rest => readEntries fuel entries (skipSpaces rest)
  | '\x7d' :: rest => .ok (.map entries, rest)
  | _ => .error .malformedJson

theorem readEntries_field (h : Spells first value) {fuel : Nat} {seen : List (String × Value)}
    (fresh : name ∉ seen.map Prod.fst) (enough : first.length ≤ fuel)
    (ended : endsNumber rest = true) :
    readEntries (fuel + 1) (Value.named seen)
        (skipSpaces (fieldChars level name first ++ rest)) =
      afterField fuel (Value.named (seen ++ [(name, value)])) rest := by
  have length := length_le_flatMap_escapeChar name.toList
  have space : skipSpaces (' ' :: (first ++ rest)) = first ++ rest := h.skipSpaces_append rest
  rw [skipSpaces_fieldChars]
  simp only [readEntries]
  rw [readText_textChars (by rw [List.length_append, List.length_cons]; omega), List.reverse_nil,
    List.nil_append, String.ofList_toList]
  simp only [skipSpaces_of_starts (c := ':') rfl, space, h.reads enough ended,
    Value.put_named fresh]
  rfl

theorem Spells.spellsFields_single (h : Spells first value) (level : Nat) (name : String) :
    SpellsFields (fieldChars level name first) [(name, value)] where
  starts rest := ⟨_, skipSpaces_fieldChars level name first rest⟩
  noReturn := not_return_mem_fieldChars h
  reads := by
    intro fuel closing seen rest enough distinct
    rw [fieldChars, List.length_append, List.length_cons, List.length_cons] at enough
    obtain ⟨fuel, rfl⟩ := Nat.exists_eq_add_one_of_ne_zero (show fuel ≠ 0 by omega)
    rw [readEntries_field h (Value.fresh_of_nodup distinct) (by omega) rfl, afterField,
      skipSpaces_indent, skipSpaces_of_starts rfl]
    rfl

theorem Spells.spellsFields_cons (h : Spells first value) (level : Nat) (name : String)
    (others : SpellsFields more fields) :
    SpellsFields (fieldChars level name first ++ ',' :: more) ((name, value) :: fields) where
  starts rest := by
    rw [List.append_assoc]
    exact ⟨_, skipSpaces_fieldChars level name first _⟩
  noReturn := by
    rw [List.mem_append, List.mem_cons, not_or, not_or]
    exact ⟨not_return_mem_fieldChars h, by decide, others.noReturn⟩
  reads := by
    intro fuel closing seen rest enough distinct
    rw [fieldChars, List.length_append, List.length_append, List.length_cons, List.length_cons,
      List.length_cons] at enough
    obtain ⟨fuel, rfl⟩ := Nat.exists_eq_add_one_of_ne_zero (show fuel ≠ 0 by omega)
    rw [List.append_assoc,
      readEntries_field h (Value.fresh_of_nodup distinct) (by omega) rfl, afterField,
      List.cons_append, skipSpaces_of_starts rfl]
    have short : more.length ≤ fuel := by omega
    have fields := List.append_cons seen (name, value) fields
    rw [fields] at distinct ⊢
    exact others.reads short distinct

theorem exists_writeEntries (nonempty : fields ≠ [])
    (all : ∀ field ∈ fields, ∀ level, ∃ cs, writeValue level field.2 = .ok cs ∧ Spells cs field.2)
    (level : Nat) :
    ∃ cs, writeEntries level (Value.named fields) = .ok cs ∧ SpellsFields cs fields := by
  induction fields with
  | nil => exact absurd rfl nonempty
  | cons field fields ih =>
    obtain ⟨name, value⟩ := field
    obtain ⟨here, there⟩ := List.forall_mem_cons.mp all
    obtain ⟨first, written, spelled⟩ := here level
    cases fields with
    | nil =>
      refine ⟨_, ?_, spelled.spellsFields_single level name⟩
      rw [Value.named, List.map_cons, List.map_nil, writeEntries, written]
      rfl
    | cons next fields =>
      obtain ⟨more, rest, others⟩ := ih (List.cons_ne_nil next fields) there
      refine ⟨_, ?_, spelled.spellsFields_cons level name others⟩
      rw [Value.named, List.map_cons, writeEntries, written, ← Value.named, rest]
      · rfl
      · exact List.cons_ne_nil _ _

theorem SpellsFields.spells (h : SpellsFields cs fields) (distinct : (fields.map Prod.fst).Nodup)
    (level : Nat) :
    Spells ('\x7b' :: cs ++ indent level ++ ['\x7d']) (.map (Value.named fields)) where
  starts := ⟨'\x7b', _, rfl, rfl, by decide⟩
  noReturn := by
    simp only [List.mem_append, List.mem_cons, not_or]
    exact ⟨⟨⟨by decide, h.noReturn⟩, not_return_mem_indent level⟩, by decide, List.not_mem_nil⟩
  reads := by
    intro fuel rest enough _
    rw [List.length_append, List.length_append, List.length_cons] at enough
    obtain ⟨fuel, rfl⟩ := Nat.exists_eq_add_one_of_ne_zero (show fuel ≠ 0 by omega)
    have text : '\x7b' :: cs ++ indent level ++ ['\x7d'] ++ rest =
        '\x7b' :: (cs ++ (indent level ++ '\x7d' :: rest)) := by simp
    obtain ⟨more, start⟩ := h.starts (indent level ++ '\x7d' :: rest)
    rw [text]
    simp only [readValue]
    split
    · next closed =>
      rw [start] at closed
      cases closed
    · have short : cs.length ≤ fuel := by omega
      exact h.reads short (by rwa [List.nil_append])

end Objects

/-- Every plain value is written, at any level, as a text that is read as the value. -/
theorem exists_writeValue (plain : v.Plain) : ∀ level, ∃ cs, writeValue level v = .ok cs ∧ Spells cs v := by
  induction plain with
  | null =>
    intro level
    exact ⟨_, rfl, spells_of_word "null" rfl rfl (by decide) (by decide) fun _ _ => rfl⟩
  | bool b =>
    intro level
    cases b with
    | true =>
      exact ⟨_, rfl, spells_of_word "true" rfl rfl (by decide) (by decide) fun _ _ => rfl⟩
    | false =>
      exact ⟨_, rfl, spells_of_word "false" rfl rfl (by decide) (by decide) fun _ _ => rfl⟩
  | @int n few =>
    intro level
    have chars : writeValue level (.int n) = (IntegerText.write n).map String.toList := rfl
    refine ⟨(toString n).toList, ?_, spells_int few⟩
    rw [chars, IntegerText.write_of_lt few]
    rfl
  | text s => exact fun level => ⟨_, rfl, spells_text s⟩
  | @list items _ ih =>
    intro level
    cases items with
    | nil => exact ⟨_, by rw [writeValue], spells_emptyList⟩
    | cons item items =>
      obtain ⟨cs, written, spelled⟩ := exists_writeItems (List.cons_ne_nil item items) ih (level + 1)
      refine ⟨_, ?_, spelled.spells level⟩
      rw [writeValue, written]
      · rfl
      · exact List.cons_ne_nil item items
  | @map fields distinct _ ih =>
    intro level
    cases fields with
    | nil => exact ⟨_, by rw [Value.named, List.map_nil, writeValue], spells_emptyMap⟩
    | cons field fields =>
      obtain ⟨cs, written, spelled⟩ :=
        exists_writeEntries (List.cons_ne_nil field fields) ih (level + 1)
      refine ⟨_, ?_, spelled.spells distinct level⟩
      rw [writeValue, written]
      · rfl
      · exact List.cons_ne_nil _ _

theorem read_write (plain : v.Plain) :
    ∃ text, write v = .ok text ∧ '\r' ∉ text.toList ∧ read text = .ok v := by
  obtain ⟨cs, written, spelled⟩ := exists_writeValue plain 0
  have front : skipSpaces cs = cs := by simpa using spelled.skipSpaces_append []
  have enough : cs.length ≤ 2 * cs.length + 2 := by omega
  have whole : readValue (2 * cs.length + 2) cs = .ok (v, []) := by
    rw [← spelled.reads enough (rfl : endsNumber [] = true), List.append_nil]
  refine ⟨String.ofList cs, by rw [write, written]; rfl, ?_, ?_⟩
  · rw [String.toList_ofList]
    exact spelled.noReturn
  · rw [read, String.toList_ofList, front, whole]
    rfl

end PromptPack.Json
