import PromptPack.Document.Value

/-! Equality of scalars. What two equal scalars are equal to is the same, so one may stand in for the
other. (Not a number is equal to nothing, itself included.) -/

namespace PromptPack

theorem Number.same_congr {m n : Number} (same : m.same n = true) (k : Number) :
    m.same k = n.same k := by
  unfold Number.same at same ⊢
  split at same
  · next p q first second => rw [first, second, eq_of_beq same]
  · cases same

theorem Number.same_comm (m n : Number) : m.same n = n.same m := by
  unfold Number.same
  cases m.place? with
  | none => cases n.place? <;> rfl
  | some p =>
    cases n.place? with
    | none => rfl
    | some q => exact BEq.comm

namespace Value

theorem same_of_number {a : Value} {m : Number} (number : a.toNumber? = some m) (c : Value) :
    a.same c = c.toNumber?.any m.same := by
  cases a <;> cases number <;> cases c <;> simp [Value.same, toNumber?]

theorem eq_of_same {a b : Value} (scalar : a.isKey = true) (other : a.toNumber? = none)
    (same : a.same b = true) : a = b := by
  cases a <;> cases other <;> cases scalar <;> cases b <;> simp_all [Value.same, toNumber?]

theorem same_congr {a b : Value} (scalar : a.isKey = true) (same : a.same b = true) (c : Value) :
    a.same c = b.same c := by
  cases number : a.toNumber? with
  | none => rw [eq_of_same scalar number same]
  | some m =>
    rw [same_of_number number] at same
    obtain ⟨n, other, equal⟩ := (Option.any_eq_true _ _).mp same
    rw [same_of_number number, same_of_number other, funext (Number.same_congr equal)]

theorem same_comm {a b : Value} (scalar : a.isKey = true) (other : b.isKey = true) :
    a.same b = b.same a := by
  cases a <;> cases scalar <;> cases b <;> cases other <;>
    simp [Value.same, toNumber?, Number.same_comm, BEq.comm]

end Value

end PromptPack
