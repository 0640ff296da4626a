import PromptPack.Text.Pattern

/-! How much text a pattern takes. Every end of a pattern is at least its shortest length behind the
place where reading began. -/

namespace PromptPack.Text.Pattern

/-- The length of the shortest text that the pattern can take. -/
def minLength : Pattern → Nat
  | .literal cs => cs.length
  | .one _ => 1
  | .run _ => 0
  | .optional _ => 0
  | .seq p q => p.minLength + q.minLength
  | .alt p q => min p.minLength q.minLength
  | .wordEdge => 0
  | .lineStart => 0

theorem length_of_literalEnd? {cs : List Char} {place last : Place}
    (h : literalEnd? cs place = some last) :
    last.rest.length + cs.length = place.rest.length := by
  induction cs generalizing place with
  | nil =>
    obtain rfl := Option.some.inj h
    rfl
  | cons k ks ih =>
    obtain ⟨before, rest⟩ := place
    cases rest with
    | nil => simp [literalEnd?] at h
    | cons c rest =>
      unfold literalEnd? at h
      split at h
      · have taken := ih h
        simp only [List.length_cons] at taken ⊢
        omega
      · cases h

theorem length_of_mem_ends {p : Pattern} {place last : Place} (h : last ∈ p.ends place) :
    last.rest.length + p.minLength ≤ place.rest.length := by
  induction p generalizing place last with
  | literal cs =>
    rw [ends, Option.mem_toList] at h
    exact Nat.le_of_eq (length_of_literalEnd? h)
  | one isMember =>
    obtain ⟨before, rest⟩ := place
    cases rest with
    | nil => simp [ends] at h
    | cons c rest =>
      rw [ends] at h
      split at h
      · obtain rfl := List.mem_singleton.mp h
        exact Nat.le_refl _
      · simp at h
  | run isMember => exact (suffix_of_mem_ends h).length_le
  | optional p ih => exact (suffix_of_mem_ends h).length_le
  | seq p q ihp ihq =>
    obtain ⟨middle, first, second⟩ := List.mem_flatMap.mp h
    have front := ihp first
    have back := ihq second
    rw [minLength]
    omega
  | alt p q ihp ihq =>
    rw [minLength]
    rcases List.mem_append.mp h with h | h
    · have taken := ihp h
      omega
    · have taken := ihq h
      omega
  | wordEdge => exact (suffix_of_mem_ends h).length_le
  | lineStart => exact (suffix_of_mem_ends h).length_le

theorem length_of_end? {p : Pattern} {place last : Place} (h : p.end? place = some last) :
    last.rest.length + p.minLength ≤ place.rest.length :=
  length_of_mem_ends (List.mem_of_head? h)

theorem minLength_sequence_pos {ps : List Pattern} {p : Pattern} (member : p ∈ ps)
    (takes : 0 < p.minLength) : 0 < (sequence ps).minLength := by
  induction ps with
  | nil => cases member
  | cons first ps ih =>
    cases ps with
    | nil =>
      obtain rfl := List.mem_singleton.mp member
      exact takes
    | cons next ps =>
      rcases List.mem_cons.mp member with rfl | member
      · exact Nat.add_pos_left takes _
      · exact Nat.add_pos_right _ (ih member)

theorem end?_eq_none_iff {p : Pattern} {place : Place} :
    p.end? place = none ↔ ¬ p.matchesAt place = true := by
  unfold end? matchesAt
  cases p.ends place <;> simp

end PromptPack.Text.Pattern
