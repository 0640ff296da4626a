import PromptPack.Proofs.Text.Gaps
import PromptPack.Transform.Markdown

/-! Closing tags. A closing tag has one bracket at each end and none inside, so it cannot stand across
an opening bracket or run on behind a closing one; and the search for the first one can skip any text
that has none. Main statements: `afterElement?_append`, `exists_first_closing`. -/

namespace PromptPack.Transform

open Text

/-- A closing tag of the name, which is given in small letters and may be written in any case. -/
def IsClosing (name tag : List Char) : Prop :=
  ∃ written, tag = "</".toList ++ written ++ ['>'] ∧ written.map lowerChar = name

def StartsClosing (name cs : List Char) : Prop := ∃ tag, IsClosing name tag ∧ tag <+: cs

def Closes (name cs : List Char) : Prop := ∃ tag, IsClosing name tag ∧ tag <:+: cs

structure Unbracketed (name : List Char) : Prop where
  opening : '<' ∉ name
  closing : '>' ∉ name

section

variable {name other tag written front behind rest cs : List Char} {c : Char}

theorem IsClosing.exists_start (closing : IsClosing name tag) (plain : Unbracketed name) :
    ∃ inner, tag = '<' :: inner ∧ '<' ∉ inner := by
  obtain ⟨written, rfl, spelled⟩ := closing
  refine ⟨'/' :: (written ++ ['>']), rfl, ?_⟩
  have lower : lowerChar '<' = '<' := rfl
  have none : '<' ∉ written := fun member =>
    plain.opening (spelled ▸ lower ▸ List.mem_map_of_mem member)
  simpa using none

theorem IsClosing.exists_end (closing : IsClosing name tag) (plain : Unbracketed name) :
    ∃ inner, tag = inner ++ ['>'] ∧ '>' ∉ inner := by
  obtain ⟨written, rfl, spelled⟩ := closing
  refine ⟨"</".toList ++ written, rfl, ?_⟩
  have lower : lowerChar '>' = '>' := rfl
  have none : '>' ∉ written := fun member =>
    plain.closing (spelled ▸ lower ▸ List.mem_map_of_mem member)
  simpa using none

theorem IsClosing.unique (closing : IsClosing name tag) (again : IsClosing other tag) :
    name = other := by
  obtain ⟨written, rfl, rfl⟩ := closing
  obtain ⟨rewritten, same, rfl⟩ := again
  obtain rfl := List.append_cancel_left (List.append_cancel_right same)
  rfl

theorem IsClosing.startsClosing (closing : IsClosing name tag) (rest : List Char) :
    StartsClosing name (tag ++ rest) := ⟨tag, closing, List.prefix_append tag rest⟩

theorem IsClosing.closes (closing : IsClosing name tag) : Closes name tag :=
  ⟨tag, closing, List.infix_rfl⟩

theorem not_closes_nil (name : List Char) : ¬ Closes name [] := by
  rintro ⟨_, ⟨written, rfl, -⟩, inside⟩
  simp at inside

theorem closes_cons_iff : Closes name (c :: cs) ↔ StartsClosing name (c :: cs) ∨ Closes name cs := by
  simp only [Closes, StartsClosing, List.infix_cons_iff, and_or_left, exists_or]

theorem Closes.mono (closes : Closes name cs) (inside : cs <:+: rest) : Closes name rest := by
  obtain ⟨tag, closing, found⟩ := closes
  exact ⟨tag, closing, found.trans inside⟩

/-- Nothing that closes a name begins in front of an opening bracket and ends behind it. -/
theorem startsClosing_append_iff (plain : Unbracketed name) (c : Char) (front cs : List Char) :
    StartsClosing name (c :: (front ++ '<' :: cs)) ↔ StartsClosing name (c :: front) := by
  constructor
  · rintro ⟨tag, closing, start⟩
    refine ⟨tag, closing, ?_⟩
    obtain ⟨inner, rfl, none⟩ := closing.exists_start plain
    obtain ⟨same, start⟩ := List.cons_prefix_cons.mp start
    exact List.cons_prefix_cons.mpr ⟨same, (prefix_append_cons_iff none).mp start⟩
  · rintro ⟨tag, closing, start⟩
    exact ⟨tag, closing, start.trans (List.prefix_append (c :: front) _)⟩

theorem closes_append_of_start (plain : Unbracketed name) (starts : ∃ tail, behind = '<' :: tail)
    (front : List Char) : Closes name (front ++ behind) ↔ Closes name front ∨ Closes name behind := by
  obtain ⟨tail, rfl⟩ := starts
  induction front with
  | nil => simp [not_closes_nil]
  | cons c front ih =>
    rw [List.cons_append, closes_cons_iff, startsClosing_append_iff plain, ih, ← or_assoc,
      ← closes_cons_iff]

theorem prefix_append_closing (front : List Char) {inner : List Char} (none : '>' ∉ inner)
    (start : inner ++ ['>'] <+: front ++ '>' :: cs) : inner ++ ['>'] <+: front ++ ['>'] := by
  induction front generalizing inner with
  | nil =>
    cases inner with
    | nil => exact List.prefix_rfl
    | cons d inner =>
      obtain ⟨rfl, -⟩ := List.cons_prefix_cons.mp start
      simp at none
  | cons c front ih =>
    cases inner with
    | nil =>
      obtain ⟨rfl, -⟩ := List.cons_prefix_cons.mp start
      simp
    | cons d inner =>
      obtain ⟨rfl, behind⟩ := List.cons_prefix_cons.mp start
      exact List.cons_prefix_cons.mpr ⟨rfl, ih (List.not_mem_of_not_mem_cons none) behind⟩

theorem closes_append_of_end (plain : Unbracketed name) (ends : ∃ inner, front = inner ++ ['>'])
    (cs : List Char) : Closes name (front ++ cs) ↔ Closes name front ∨ Closes name cs := by
  obtain ⟨front, rfl⟩ := ends
  rw [List.append_assoc, List.singleton_append]
  constructor
  · intro closes
    induction front with
    | nil =>
      rcases closes_cons_iff.mp closes with ⟨tag, closing, start⟩ | closes
      · obtain ⟨inner, rfl, none⟩ := closing.exists_end plain
        exact .inl ⟨_, closing, (prefix_append_closing [] none start).isInfix⟩
      · exact .inr closes
    | cons c front ih =>
      rw [List.cons_append] at closes ⊢
      rcases closes_cons_iff.mp closes with ⟨tag, closing, start⟩ | closes
      · obtain ⟨inner, rfl, none⟩ := closing.exists_end plain
        exact .inl ⟨_, closing, (prefix_append_closing (c :: front) none start).isInfix⟩
      · exact (ih closes).imp_left fun closes => closes.mono (List.suffix_cons c _).isInfix
  · rintro (closes | closes)
    · exact closes.mono ⟨[], cs, by simp⟩
    · exact closes.mono (((List.suffix_cons '>' cs).trans (List.suffix_append front _)).isInfix)

theorem IsClosing.closes_iff (closing : IsClosing other tag) (plainOther : Unbracketed other)
    (plain : Unbracketed name) : Closes name tag ↔ name = other := by
  constructor
  · rintro ⟨found, again, before, behind, joined⟩
    obtain ⟨inner, start, noneStart⟩ := closing.exists_start plainOther
    obtain ⟨outer, ends, noneEnd⟩ := closing.exists_end plainOther
    obtain ⟨innerFound, startFound, -⟩ := again.exists_start plain
    obtain ⟨outerFound, endsFound, -⟩ := again.exists_end plain
    have nothingBefore : before = [] := by
      cases before with
      | nil => rfl
      | cons c before =>
        rw [start, List.cons_append, List.cons_append] at joined
        obtain ⟨-, joined⟩ := List.cons.inj joined
        exact absurd (by simp [← joined, startFound]) noneStart
    have nothingBehind : behind = [] := by
      rcases List.eq_nil_or_concat behind with rfl | ⟨behind, c, rfl⟩
      · rfl
      · rw [ends, List.concat_eq_append, ← List.append_assoc] at joined
        obtain ⟨joined, -⟩ := List.append_inj' joined rfl
        exact absurd (by simp [← joined, endsFound]) noneEnd
    rw [nothingBefore, nothingBehind, List.nil_append, List.append_nil] at joined
    exact again.unique (joined.symm ▸ closing)
  · rintro rfl
    exact closing.closes

theorem exists_first_closing (closes : Closes name cs) :
    ∃ front tag rest, cs = front ++ (tag ++ rest) ∧ IsClosing name tag ∧ ¬ Closes name front := by
  induction cs with
  | nil => exact absurd closes (not_closes_nil name)
  | cons c cs ih =>
    by_cases starts : StartsClosing name (c :: cs)
    · obtain ⟨tag, closing, rest, joined⟩ := starts
      exact ⟨[], tag, rest, joined.symm, closing, not_closes_nil name⟩
    · obtain ⟨front, tag, rest, rfl, closing, none⟩ := ih ((closes_cons_iff.mp closes).resolve_left starts)
      refine ⟨c :: front, tag, rest, rfl, closing, fun closes => ?_⟩
      rcases closes_cons_iff.mp closes with ⟨early, closing, start⟩ | closes
      · exact starts ⟨early, closing, start.trans (List.prefix_append (c :: front) _)⟩
      · exact none closes

/-! The search. -/

theorem afterClosingTag?_eq_some : afterClosingTag? written cs = some rest ↔
    ∃ tag, IsClosing (written.map lowerChar) tag ∧ cs = tag ++ rest := by
  simp only [afterClosingTag?, Option.bind_eq_bind, Option.bind_eq_some_iff]
  constructor
  · rintro ⟨inner, opened, closed⟩
    split at closed
    · next spelled =>
      refine ⟨"</".toList ++ inner.take written.length ++ ['>'], ⟨_, rfl, spelled⟩, ?_⟩
      rw [after?_eq_some.mp opened, List.append_assoc, List.append_assoc,
        ← after?_eq_some.mp closed, List.take_append_drop]
    · cases closed
  · rintro ⟨tag, ⟨again, rfl, spelled⟩, rfl⟩
    have length : written.length = again.length := by
      simpa using (congrArg List.length spelled).symm
    refine ⟨again ++ '>' :: rest, after?_eq_some.mpr (by simp), ?_⟩
    rw [List.take_left' length.symm, if_pos spelled, List.drop_left' length.symm]
    exact after?_eq_some.mpr rfl

theorem afterElement?_closing (closing : IsClosing (written.map lowerChar) tag)
    (rest : List Char) : afterElement? written (tag ++ rest) = some rest := by
  have found : afterClosingTag? written (tag ++ rest) = some rest :=
    afterClosingTag?_eq_some.mpr ⟨tag, closing, rfl⟩
  obtain ⟨again, rfl, -⟩ := closing
  have whole : "</".toList ++ again ++ ['>'] ++ rest = '<' :: '/' :: (again ++ '>' :: rest) := by
    simp
  rw [whole] at found ⊢
  rw [afterElement?, found]

theorem afterElement?_append (plain : Unbracketed (written.map lowerChar))
    (none : ¬ Closes (written.map lowerChar) front) (cs : List Char) :
    afterElement? written (front ++ '<' :: cs) = afterElement? written ('<' :: cs) := by
  induction front with
  | nil => rfl
  | cons c front ih =>
    obtain ⟨absent, none⟩ := not_or.mp (mt closes_cons_iff.mpr none)
    have missing : afterClosingTag? written (c :: (front ++ '<' :: cs)) = Option.none := by
      by_contra found
      obtain ⟨rest, found⟩ := Option.ne_none_iff_exists'.mp found
      obtain ⟨tag, closing, joined⟩ := afterClosingTag?_eq_some.mp found
      exact absent ((startsClosing_append_iff plain c front cs).mp ⟨tag, closing, rest, joined.symm⟩)
    rw [List.cons_append, afterElement?, missing]
    exact ih none

theorem afterElement?_first (plain : Unbracketed (written.map lowerChar))
    (none : ¬ Closes (written.map lowerChar) front) (closing : IsClosing (written.map lowerChar) tag)
    (rest : List Char) : afterElement? written (front ++ (tag ++ rest)) = some rest := by
  have found := afterElement?_closing closing rest
  obtain ⟨tail, rfl, -⟩ := closing.exists_start plain
  exact (afterElement?_append plain none _).trans found

theorem exists_afterElement? (plain : Unbracketed (written.map lowerChar))
    (closes : Closes (written.map lowerChar) cs) :
    ∃ left, left <:+ cs ∧ ∀ behind, afterElement? written (cs ++ behind) = some (left ++ behind) := by
  obtain ⟨front, tag, left, rfl, closing, none⟩ := exists_first_closing closes
  refine ⟨left, (List.suffix_append tag left).trans (List.suffix_append front _), ?_⟩
  intro behind
  have found := afterElement?_first plain none closing (left ++ behind)
  simpa using found

end

end PromptPack.Transform
