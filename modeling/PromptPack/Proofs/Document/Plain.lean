import Mathlib.Algebra.Group.Nat.Defs
import PromptPack.Document.Json.Reader

/-! Values that every format can hold: no doubles, dates, bytes or sets, no overlong integers, and
mappings with texts as keys, each key once. -/

namespace PromptPack.Value

def named (fields : List (String × Value)) : List (Value × Value) :=
  fields.map fun (name, value) => (.text name, value)

inductive Plain : Value → Prop where
  | null : Plain .null
  | bool (b : Bool) : Plain (.bool b)
  | int {n : Int} (few : n.natAbs < 10 ^ IntegerText.maxDigits) : Plain (.int n)
  | text (s : String) : Plain (.text s)
  | list {items : List Value} (all : ∀ item ∈ items, Plain item) : Plain (.list items)
  | map {fields : List (String × Value)} (distinct : (fields.map Prod.fst).Nodup)
      (all : ∀ field ∈ fields, Plain field.2) : Plain (.map (named fields))

variable {fields : List (String × Value)} {entries : List (Value × Value)} {name : String}
  {value : Value}

theorem Plain.int_of_lt {n : Int} (few : n.natAbs < 10 ^ 18) : Plain (.int n) :=
  .int (Nat.lt_of_lt_of_le few (Nat.pow_le_pow_right (by decide) (by decide)))

theorem same_text (s t : String) : (Value.text s).same (.text t) = (s == t) := by
  simp [same]

theorem field?_named (fields : List (String × Value)) (name : String) :
    field? (named fields) name = (fields.find? (·.1 == name)).map (·.2) := by
  induction fields with
  | nil => rfl
  | cons field fields ih =>
    simp only [field?, find?, named, List.map_cons, List.find?_cons, same_text] at ih ⊢
    cases field.1 == name with
    | true => rfl
    | false => exact ih

theorem Plain.field {entries : List (Value × Value)} (plain : Plain (.map entries))
    (found : field? entries name = some value) : value.Plain := by
  cases plain with
  | map distinct all =>
    rw [field?_named] at found
    obtain ⟨field, listed, rfl⟩ := Option.map_eq_some_iff.mp found
    exact all field (List.mem_of_find?_eq_some listed)

theorem Plain.getD_field (plain : Plain (.map entries)) {default : Value}
    (spare : default.Plain) : ((field? entries name).getD default).Plain := by
  cases found : field? entries name with
  | none => exact spare
  | some value => exact plain.field found

theorem fresh_of_nodup {seen : List (String × Value)}
    (distinct : ((seen ++ (name, value) :: fields).map Prod.fst).Nodup) :
    name ∉ seen.map Prod.fst := by
  rw [List.map_append, List.nodup_append] at distinct
  exact fun listed => distinct.2.2 name listed name List.mem_cons_self rfl

theorem put_named (fresh : name ∉ fields.map Prod.fst) :
    put (named fields) (.text name) value = named (fields ++ [(name, value)]) := by
  induction fields with
  | nil => rfl
  | cons field fields ih =>
    obtain ⟨other, fresh⟩ := not_or.mp (mt List.mem_cons.mpr fresh)
    have differs : (Value.text field.1).same (.text name) = false := by
      rw [same_text, beq_eq_false_iff_ne]
      exact Ne.symm other
    have rest := ih fresh
    simp only [named, List.map_cons, List.cons_append, put, differs] at rest ⊢
    rw [if_neg Bool.false_ne_true, rest]

theorem coversEntries_of_subset {xs ys : List (Value × Value)} (subset : xs ⊆ ys)
    (same : ∀ entry ∈ xs, entry.1.same entry.1 = true ∧ entry.2.same entry.2 = true) :
    coversEntries xs ys = true := by
  induction xs with
  | nil => rw [coversEntries]
  | cons entry xs ih =>
    obtain ⟨here, there⟩ := List.cons_subset.mp subset
    obtain ⟨first, rest⟩ := List.forall_mem_cons.mp same
    rw [coversEntries, Bool.and_eq_true, List.any_eq_true]
    exact ⟨⟨entry, here, Bool.and_eq_true _ _ |>.mpr first⟩, ih there rest⟩

theorem sameItems_self {items : List Value} (same : ∀ item ∈ items, item.same item = true) :
    sameItems items items = true := by
  induction items with
  | nil => rw [sameItems]
  | cons item items ih =>
    obtain ⟨first, rest⟩ := List.forall_mem_cons.mp same
    rw [sameItems, first, ih rest, Bool.and_self]

theorem Plain.same_self (plain : value.Plain) : value.same value = true := by
  induction plain with
  | null => rw [same]
  | bool b => simp [same, toNumber?, Number.same, Number.place?]
  | @int n _ => simp [same, toNumber?, Number.same, Number.place?]
  | text s => rw [same_text, beq_self_eq_true]
  | list _ ih =>
    rw [same]
    exact sameItems_self ih
  | map _ _ ih =>
    rw [same, beq_self_eq_true, Bool.true_and]
    refine coversEntries_of_subset (fun _ => id) ?_
    intro entry member
    obtain ⟨field, listed, rfl⟩ := List.mem_map.mp member
    exact ⟨by rw [same_text, beq_self_eq_true], ih field listed⟩

end PromptPack.Value
