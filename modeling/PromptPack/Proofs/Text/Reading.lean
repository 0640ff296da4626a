import PromptPack.Proofs.Text.Pattern

/-! What a pattern reads, apart from what it prefers to read. The ends that the matcher finds are
exactly the texts of this relation, so a statement about a match can speak of the characters read
and of their neighbours. Main statement: `mem_ends_iff`. -/

namespace PromptPack.Text

/-- The character that has just been passed once a text is read. -/
def lastOf (before : Option Char) (taken : List Char) : Option Char := taken.getLast?.or before

@[simp] theorem lastOf_nil (before : Option Char) : lastOf before [] = before := rfl

@[simp] theorem lastOf_cons (before : Option Char) (c : Char) (cs : List Char) :
    lastOf before (c :: cs) = lastOf (some c) cs := by
  unfold lastOf
  rw [List.getLast?_cons]
  cases cs.getLast? <;> rfl

theorem lastOf_of_ne_nil {before : Option Char} {taken : List Char} (some : taken ≠ []) :
    lastOf before taken = taken.getLast? := by
  rw [lastOf, List.getLast?_eq_some_getLast some, Option.some_or]

theorem lastOf_append (before : Option Char) (front back : List Char) :
    lastOf before (front ++ back) = lastOf (lastOf before front) back := by
  induction front generalizing before with
  | nil => rfl
  | cons c front ih => rw [List.cons_append, lastOf_cons, lastOf_cons, ih]

namespace Pattern

/-- The pattern can read `taken` between the character `before` and the text `rest`. -/
def Reads : Pattern → Option Char → List Char → List Char → Prop
  | .literal cs, _, taken, _ => taken = cs
  | .one isMember, _, taken, _ => ∃ c, isMember c = true ∧ taken = [c]
  | .run isMember, _, taken, _ => ∀ c ∈ taken, isMember c = true
  | .optional p, before, taken, rest => p.Reads before taken rest ∨ taken = []
  | .seq p q, before, taken, rest => ∃ front back, taken = front ++ back ∧
      p.Reads before front (back ++ rest) ∧ q.Reads (lastOf before front) back rest
  | .alt p q, before, taken, rest => p.Reads before taken rest ∨ q.Reads before taken rest
  | .wordEdge, before, taken, rest => taken = [] ∧ isWordEdge before rest.head? = true
  | .lineStart, before, taken, _ => taken = [] ∧ before.all (· == '\n') = true

theorem literalEnd?_eq_some_iff {cs text rest : List Char} {before after : Option Char} :
    literalEnd? cs ⟨before, text⟩ = some ⟨after, rest⟩ ↔
      text = cs ++ rest ∧ after = lastOf before cs := by
  induction cs generalizing before text with
  | nil =>
    simp only [literalEnd?, Option.some.injEq, Place.mk.injEq, List.nil_append, lastOf_nil]
    constructor
    · rintro ⟨rfl, rfl⟩
      exact ⟨rfl, rfl⟩
    · rintro ⟨rfl, rfl⟩
      exact ⟨rfl, rfl⟩
  | cons k ks ih =>
    cases text with
    | nil => simp [literalEnd?]
    | cons c text =>
      simp only [literalEnd?]
      split
      · next same =>
        subst same
        rw [ih, lastOf_cons, List.cons_append, List.cons.injEq, eq_self, true_and]
      · next other =>
        simp only [List.cons_append, List.cons.injEq, reduceCtorEq, false_iff]
        rintro ⟨⟨same, _⟩, _⟩
        exact other same.symm

theorem mem_runEnds_iff {isMember : Char → Bool} {text rest : List Char}
    {before after : Option Char} {shorter : List Place} :
    ⟨after, rest⟩ ∈ runEnds isMember before text shorter ↔
      ⟨after, rest⟩ ∈ shorter ∨ ∃ taken, text = taken ++ rest ∧ after = lastOf before taken ∧
        ∀ c ∈ taken, isMember c = true := by
  induction text generalizing before shorter with
  | nil =>
    rw [runEnds, List.mem_cons, or_comm]
    apply or_congr_right
    constructor
    · rintro ⟨⟩
      exact ⟨[], rfl, rfl, by simp⟩
    · rintro ⟨taken, split, rfl, _⟩
      obtain ⟨rfl, rfl⟩ := List.append_eq_nil_iff.mp split.symm
      rfl
  | cons c text ih =>
    unfold runEnds
    split
    · next member =>
      rw [ih, List.mem_cons, or_comm (a := _ = _), or_assoc]
      apply or_congr_right
      constructor
      · rintro (⟨⟨⟩⟩ | ⟨taken, rfl, rfl, all⟩)
        · exact ⟨[], rfl, rfl, by simp⟩
        · exact ⟨c :: taken, rfl, (lastOf_cons before c taken).symm, by simpa [member] using all⟩
      · rintro ⟨taken, split, rfl, all⟩
        cases taken with
        | nil =>
          obtain rfl : c :: text = rest := split
          exact .inl rfl
        | cons d taken =>
          obtain ⟨rfl, left⟩ := List.cons.inj split
          exact .inr ⟨taken, left, lastOf_cons before c taken,
            fun d member => all d (List.mem_cons_of_mem _ member)⟩
    · next other =>
      rw [List.mem_cons, or_comm]
      apply or_congr_right
      constructor
      · rintro ⟨⟩
        exact ⟨[], rfl, rfl, by simp⟩
      · rintro ⟨taken, split, rfl, all⟩
        cases taken with
        | nil =>
          obtain rfl : c :: text = rest := split
          rfl
        | cons d taken =>
          obtain ⟨rfl, _⟩ := List.cons.inj split
          exact absurd (all c List.mem_cons_self) other

/-- The matcher finds the texts that the pattern can read, and no others. -/
theorem mem_ends_iff {p : Pattern} {text rest : List Char} {before after : Option Char} :
    ⟨after, rest⟩ ∈ p.ends ⟨before, text⟩ ↔
      ∃ taken, text = taken ++ rest ∧ after = lastOf before taken ∧
        p.Reads before taken rest := by
  induction p generalizing before after text rest with
  | literal cs =>
    rw [ends, Option.mem_toList, literalEnd?_eq_some_iff]
    constructor
    · rintro ⟨split, same⟩
      exact ⟨cs, split, same, rfl⟩
    · rintro ⟨_, split, same, rfl⟩
      exact ⟨split, same⟩
  | one isMember =>
    cases text with
    | nil =>
      simp only [ends, List.not_mem_nil, false_iff]
      rintro ⟨_, split, _, c, _, rfl⟩
      cases split
    | cons c text =>
      simp only [ends]
      split
      · next member =>
        rw [List.mem_singleton, Place.mk.injEq]
        constructor
        · rintro ⟨rfl, rfl⟩
          exact ⟨[c], rfl, rfl, c, member, rfl⟩
        · rintro ⟨_, split, rfl, d, _, rfl⟩
          obtain ⟨rfl, rfl⟩ := List.cons.inj split
          exact ⟨rfl, rfl⟩
      · next other =>
        simp only [List.not_mem_nil, false_iff]
        rintro ⟨_, split, _, d, member, rfl⟩
        obtain ⟨rfl, _⟩ := List.cons.inj split
        exact other member
  | run isMember =>
    rw [ends, mem_runEnds_iff, or_iff_right List.not_mem_nil]
    rfl
  | optional p ih =>
    rw [ends, List.mem_append, List.mem_singleton, ih]
    constructor
    · rintro (⟨taken, split, same, reads⟩ | ⟨⟨⟩⟩)
      · exact ⟨taken, split, same, .inl reads⟩
      · exact ⟨[], rfl, rfl, .inr rfl⟩
    · rintro ⟨taken, split, same, reads | rfl⟩
      · exact .inl ⟨taken, split, same, reads⟩
      · exact .inr (by rw [split, same]; rfl)
  | seq p q ihp ihq =>
    rw [ends, List.mem_flatMap]
    constructor
    · rintro ⟨⟨between, middle⟩, first, second⟩
      obtain ⟨front, rfl, rfl, readsFront⟩ := ihp.mp first
      obtain ⟨back, rfl, rfl, readsBack⟩ := ihq.mp second
      exact ⟨front ++ back, (List.append_assoc _ _ _).symm, (lastOf_append before front back).symm,
        front, back, rfl, readsFront, readsBack⟩
    · rintro ⟨_, rfl, rfl, front, back, rfl, readsFront, readsBack⟩
      refine ⟨⟨lastOf before front, back ++ rest⟩, ?_, ?_⟩
      · exact ihp.mpr ⟨front, List.append_assoc _ _ _, rfl, readsFront⟩
      · exact ihq.mpr ⟨back, rfl, lastOf_append before front back, readsBack⟩
  | alt p q ihp ihq =>
    rw [ends, List.mem_append, ihp, ihq]
    constructor
    · rintro (⟨taken, split, same, reads⟩ | ⟨taken, split, same, reads⟩)
      · exact ⟨taken, split, same, .inl reads⟩
      · exact ⟨taken, split, same, .inr reads⟩
    · rintro ⟨taken, split, same, reads | reads⟩
      · exact .inl ⟨taken, split, same, reads⟩
      · exact .inr ⟨taken, split, same, reads⟩
  | wordEdge =>
    simp only [ends]
    split
    · next edge =>
      rw [List.mem_singleton, Place.mk.injEq]
      constructor
      · rintro ⟨rfl, rfl⟩
        exact ⟨[], rfl, rfl, rfl, edge⟩
      · rintro ⟨_, split, same, rfl, _⟩
        exact ⟨same, split.symm⟩
    · next inside =>
      simp only [List.not_mem_nil, false_iff]
      rintro ⟨_, rfl, _, rfl, edge⟩
      exact inside edge
  | lineStart =>
    simp only [ends]
    split
    · next start =>
      rw [List.mem_singleton, Place.mk.injEq]
      constructor
      · rintro ⟨rfl, rfl⟩
        exact ⟨[], rfl, rfl, rfl, start⟩
      · rintro ⟨_, split, same, rfl, _⟩
        exact ⟨same, split.symm⟩
    · next inside =>
      simp only [List.not_mem_nil, false_iff]
      rintro ⟨_, rfl, _, rfl, start⟩
      exact inside start

theorem matchesAt_iff_exists_mem {p : Pattern} {place : Place} :
    p.matchesAt place = true ↔ ∃ last, last ∈ p.ends place := by
  unfold matchesAt
  cases p.ends place with
  | nil => simp
  | cons last others => simp

theorem matchesAt_iff {p : Pattern} {before : Option Char} {text : List Char} :
    p.matchesAt ⟨before, text⟩ = true ↔
      ∃ taken rest, text = taken ++ rest ∧ p.Reads before taken rest := by
  rw [matchesAt_iff_exists_mem]
  constructor
  · rintro ⟨⟨after, rest⟩, found⟩
    obtain ⟨taken, split, _, reads⟩ := mem_ends_iff.mp found
    exact ⟨taken, rest, split, reads⟩
  · rintro ⟨taken, rest, split, reads⟩
    exact ⟨⟨lastOf before taken, rest⟩, mem_ends_iff.mpr ⟨taken, split, rfl, reads⟩⟩

theorem reads_of_end? {p : Pattern} {before : Option Char} {text : List Char} {last : Place}
    (h : p.end? ⟨before, text⟩ = some last) :
    ∃ taken, text = taken ++ last.rest ∧ p.Reads before taken last.rest := by
  obtain ⟨taken, split, _, reads⟩ := mem_ends_iff.mp (List.mem_of_head? h)
  exact ⟨taken, split, reads⟩

/-- Of what follows, reading sees the next character at most. -/
theorem Reads.of_head? {p : Pattern} {before : Option Char} {taken rest other : List Char}
    (same : rest.head? = other.head?) (h : p.Reads before taken rest) :
    p.Reads before taken other := by
  induction p generalizing before taken rest other with
  | literal cs => exact h
  | one isMember => exact h
  | run isMember => exact h
  | optional p ih => exact h.imp_left (ih same)
  | seq p q ihp ihq =>
    obtain ⟨front, back, rfl, first, second⟩ := h
    have behind : (back ++ rest).head? = (back ++ other).head? := by
      rw [List.head?_append, same, ← List.head?_append]
    exact ⟨front, back, rfl, ihp behind first, ihq same second⟩
  | alt p q ihp ihq => exact h.imp (ihp same) (ihq same)
  | wordEdge => exact ⟨h.1, same ▸ h.2⟩
  | lineStart => exact h

theorem reads_anyOf {p : Pattern} {ps : List Pattern} {before : Option Char}
    {taken rest : List Char} (member : p ∈ ps) (h : p.Reads before taken rest) :
    (anyOf ps).Reads before taken rest := by
  induction ps with
  | nil => cases member
  | cons first ps ih =>
    cases ps with
    | nil =>
      obtain rfl := List.mem_singleton.mp member
      exact h
    | cons next ps =>
      rcases List.mem_cons.mp member with rfl | member
      · exact .inl h
      · exact .inr (ih member)

theorem reads_none_iff {p : Pattern} {taken rest : List Char} :
    p.Reads none taken rest ↔ p.Reads (some '\n') taken rest := by
  induction p generalizing taken rest with
  | literal _ | one _ | run _ | lineStart => exact Iff.rfl
  | optional p ih => exact or_congr_left ih
  | seq p q ihp ihq =>
    refine exists_congr fun front => exists_congr fun back => and_congr_right fun _ => ?_
    cases front with
    | nil => exact and_congr ihp ihq
    | cons c front => exact and_congr_left fun _ => ihp
  | alt p q ihp ihq => exact or_congr ihp ihq
  | wordEdge => exact Iff.rfl

theorem Reads.of_lineStart {p : Pattern} {before : Option Char} {taken rest : List Char}
    (start : before.all (· == '\n') = true) (h : p.Reads before taken rest) :
    p.Reads (some '\n') taken rest := by
  cases before with
  | none => exact reads_none_iff.mp h
  | some c =>
    obtain rfl : c = '\n' := by simpa using start
    exact h

theorem matchesAt_none_iff {p : Pattern} {cs : List Char} :
    p.matchesAt ⟨none, cs⟩ = true ↔ p.matchesAt ⟨some '\n', cs⟩ = true := by
  rw [matchesAt_iff, matchesAt_iff]
  simp only [reads_none_iff]

theorem foundFrom_iff {p : Pattern} {before : Option Char} {cs : List Char} :
    p.foundFrom before cs = true ↔
    ∃ front rest, cs = front ++ rest ∧ p.matchesAt ⟨lastOf before front, rest⟩ = true := by
  induction cs generalizing before with
  | nil =>
    rw [foundFrom]
    constructor
    · exact fun found => ⟨[], [], rfl, found⟩
    · rintro ⟨front, rest, split, found⟩
      obtain ⟨rfl, rfl⟩ := List.append_eq_nil_iff.mp split.symm
      exact found
  | cons c cs ih =>
    rw [foundFrom, Bool.or_eq_true, ih]
    constructor
    · rintro (found | ⟨front, rest, rfl, found⟩)
      · exact ⟨[], c :: cs, rfl, found⟩
      · exact ⟨c :: front, rest, rfl, by rwa [lastOf_cons]⟩
    · rintro ⟨front, rest, split, found⟩
      cases front with
      | nil =>
        obtain rfl : c :: cs = rest := split
        exact .inl found
      | cons d front =>
        obtain ⟨rfl, same⟩ := List.cons.inj split
        rw [lastOf_cons] at found
        exact .inr ⟨front, rest, same, found⟩

theorem foundIn_iff {p : Pattern} {cs : List Char} : p.foundIn cs = true ↔ ∃ front taken rest,
    cs = front ++ (taken ++ rest) ∧ p.Reads front.getLast? taken rest := by
  have start : ∀ front : List Char, lastOf none front = front.getLast? := fun _ => Option.or_none
  rw [foundIn, foundFrom_iff]
  constructor
  · rintro ⟨front, text, rfl, found⟩
    obtain ⟨taken, rest, rfl, reads⟩ := matchesAt_iff.mp found
    exact ⟨front, taken, rest, rfl, start front ▸ reads⟩
  · rintro ⟨front, taken, rest, rfl, reads⟩
    exact ⟨front, taken ++ rest, rfl, matchesAt_iff.mpr ⟨taken, rest, rfl, start front ▸ reads⟩⟩

end Pattern

end PromptPack.Text
