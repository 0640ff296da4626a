import Mathlib.Data.List.Nodup
import Mathlib.Data.List.Perm.Basic
import Mathlib.Data.List.Perm.Subperm
import PromptPack.Proofs.Document.Plain
import PromptPack.Proofs.Document.Value
import PromptPack.Proofs.Table

/-! Fields of equal mappings. A mapping that is equal to one of distinct fields has fields of the same
names and no other entries, in some order, and their values are equal. Main statement:
`exists_named_of_same`. -/

namespace PromptPack.Value

variable {fields : List (String × Value)} {entries : List (Value × Value)} {names : List String}
  {value found : Value}

theorem text_injective : Function.Injective Value.text := fun _ _ => Value.text.inj

theorem eq_text_of_same {name : String} (same : (Value.text name).same value = true) :
    value = .text name :=
  (eq_of_same rfl rfl same).symm

theorem map_fst_named (fields : List (String × Value)) :
    (named fields).map Prod.fst = (fields.map Prod.fst).map Value.text := by
  simp [named, Function.comp_def]

theorem exists_named (texts : entries.map Prod.fst ⊆ names.map .text) :
    ∃ fields, entries = named fields := by
  induction entries with
  | nil => exact ⟨[], rfl⟩
  | cons entry entries ih =>
    obtain ⟨here, there⟩ := List.cons_subset.mp texts
    obtain ⟨name, _, key⟩ := List.mem_map.mp here
    obtain ⟨fields, rfl⟩ := ih there
    exact ⟨(name, entry.2) :: fields, congrArg (· :: named fields) (Prod.ext key.symm rfl)⟩

theorem exists_entry_of_covers (covers : coversEntries (named fields) entries = true) :
    ∀ field ∈ fields, ∃ value, (.text field.1, value) ∈ entries ∧ field.2.same value = true := by
  induction fields with
  | nil => exact List.forall_mem_nil _
  | cons field fields ih =>
    rw [named, List.map_cons, coversEntries, Bool.and_eq_true, List.any_eq_true] at covers
    obtain ⟨⟨entry, member, same⟩, covers⟩ := covers
    obtain ⟨key, same⟩ := (Bool.and_eq_true _ _).mp same
    refine List.forall_mem_cons.mpr ⟨⟨entry.2, ?_, same⟩, ih covers⟩
    rwa [← eq_text_of_same key]

theorem exists_named_of_same (distinct : (fields.map Prod.fst).Nodup)
    (same : (Value.map (named fields)).same found = true) :
    ∃ others, found = .map (named others) ∧ (fields.map Prod.fst).Perm (others.map Prod.fst) ∧
      ∀ field ∈ fields, ∃ value, (field.1, value) ∈ others ∧ field.2.same value = true := by
  cases found with
  | map entries =>
    rw [Value.same, Bool.and_eq_true, beq_iff_eq] at same
    have covered := exists_entry_of_covers same.2
    have keys : ((named fields).map Prod.fst).Perm (entries.map Prod.fst) := by
      refine (List.subperm_of_subset ?_ fun key listed => ?_).perm_of_length_le ?_
      · rw [map_fst_named]
        exact List.Nodup.map text_injective distinct
      · obtain ⟨entry, member, rfl⟩ := List.mem_map.mp listed
        obtain ⟨field, isField, rfl⟩ := List.mem_map.mp member
        obtain ⟨value, isEntry, _⟩ := covered field isField
        exact List.mem_map.mpr ⟨_, isEntry, rfl⟩
      · rw [List.length_map, List.length_map]
        exact Nat.le_of_eq same.1.symm
    rw [map_fst_named] at keys
    obtain ⟨others, rfl⟩ := exists_named keys.symm.subset
    rw [map_fst_named, List.map_perm_map_iff text_injective] at keys
    refine ⟨others, rfl, keys, fun field isField => ?_⟩
    obtain ⟨value, isEntry, equal⟩ := covered field isField
    obtain ⟨other, isOther, entry⟩ := List.mem_map.mp isEntry
    obtain ⟨key, rfl⟩ := Prod.mk.inj entry
    exact ⟨other.2, text_injective key ▸ isOther, equal⟩
  | _ => simp [Value.same, toNumber?] at same

theorem field?_of_mem (distinct : (fields.map Prod.fst).Nodup) {field : String × Value}
    (member : field ∈ fields) : field? (named fields) field.1 = some field.2 := by
  rw [field?_named]
  exact Table.get?_of_mem distinct member

theorem same_getD_field? {name : String}
    (found : ∃ other, field? entries name = some other ∧ value.same other = true) (default : Value) :
    value.same ((field? entries name).getD default) = true := by
  obtain ⟨other, found, same⟩ := found
  rwa [found]

theorem exists_field?_of_same (distinct : (fields.map Prod.fst).Nodup)
    (same : (Value.map (named fields)).same found = true) :
    ∃ others, found = .map (named others) ∧ (fields.map Prod.fst).Perm (others.map Prod.fst) ∧
      ∀ field ∈ fields, ∃ value, field? (named others) field.1 = some value ∧
        field.2.same value = true := by
  obtain ⟨others, rfl, perm, equal⟩ := exists_named_of_same distinct same
  refine ⟨others, rfl, perm, fun field isField => ?_⟩
  obtain ⟨value, member, same⟩ := equal field isField
  exact ⟨value, field?_of_mem (perm.nodup_iff.mp distinct) member, same⟩

end PromptPack.Value
