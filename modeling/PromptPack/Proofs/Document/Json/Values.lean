import Mathlib.Data.List.Nodup
import PromptPack.Proofs.Document.Plain
import PromptPack.Proofs.Fault

/-! What a JSON text can stand for. Main statement: `Json.isJson_of_read`. -/

namespace PromptPack

namespace Value

/-- No dates, bytes or sets, and mappings with texts as keys, each key once. -/
inductive IsJson : Value → Prop where
  | null : IsJson .null
  | bool (b : Bool) : IsJson (.bool b)
  | int (n : Int) : IsJson (.int n)
  | float (x : Binary64) : IsJson (.float x)
  | text (s : String) : IsJson (.text s)
  | list {items : List Value} (all : ∀ item ∈ items, IsJson item) : IsJson (.list items)
  | map {fields : List (String × Value)} (distinct : (fields.map Prod.fst).Nodup)
      (all : ∀ field ∈ fields, IsJson field.2) : IsJson (.map (named fields))

variable {fields : List (String × Value)} {entries : List (Value × Value)} {name : String}
  {value : Value}

theorem IsJson.field (json : (Value.map entries).IsJson) (found : field? entries name = some value) :
    value.IsJson := by
  cases json with
  | map distinct all =>
    rw [field?_named] at found
    obtain ⟨field, listed, rfl⟩ := Option.map_eq_some_iff.mp found
    exact all field (List.mem_of_find?_eq_some listed)

def setField (name : String) (value : Value) (fields : List (String × Value)) :
    List (String × Value) :=
  fields.map fun field => if field.1 = name then (field.1, value) else field

theorem setField_of_not_mem (fresh : name ∉ fields.map Prod.fst) :
    setField name value fields = fields := by
  apply (List.map_congr_left _).trans (List.map_id fields)
  intro field listed
  apply if_neg
  rintro rfl
  exact fresh (List.mem_map_of_mem listed)

theorem keys_setField (name : String) (value : Value) (fields : List (String × Value)) :
    (setField name value fields).map Prod.fst = fields.map Prod.fst := by
  rw [setField, List.map_map]
  apply List.map_congr_left
  intro field _
  rw [Function.comp_apply]
  split <;> rfl

theorem put_named_of_mem (distinct : (fields.map Prod.fst).Nodup)
    (known : name ∈ fields.map Prod.fst) :
    put (named fields) (.text name) value = named (setField name value fields) := by
  induction fields with
  | nil => cases known
  | cons field fields ih =>
    obtain ⟨fresh, distinct⟩ := List.nodup_cons.mp distinct
    have rest := ih distinct
    simp only [named, setField, List.map_cons, put, same_text] at rest ⊢
    by_cases same : field.1 = name
    · have unchanged : setField name value fields = fields := setField_of_not_mem (same ▸ fresh)
      rw [setField] at unchanged
      rw [if_pos (beq_iff_eq.mpr same), if_pos same, unchanged]
    · have later := (List.mem_cons.mp known).resolve_left (Ne.symm same)
      rw [if_neg (mt beq_iff_eq.mp same), if_neg same, rest later]

theorem IsJson.put (json : (Value.map entries).IsJson) (name : String) (added : value.IsJson) :
    (Value.map (put entries (.text name) value)).IsJson := by
  cases json with
  | @map fields distinct all =>
    by_cases known : name ∈ fields.map Prod.fst
    · rw [put_named_of_mem distinct known]
      apply IsJson.map (by rwa [keys_setField])
      intro field listed
      obtain ⟨old, member, rfl⟩ := List.mem_map.mp listed
      split
      · exact added
      · exact all old member
    · rw [put_named known]
      apply IsJson.map
      · rw [List.map_append, List.map_singleton, ← List.concat_eq_append]
        exact distinct.concat known
      · simp only [List.mem_append, List.mem_singleton]
        rintro field (listed | rfl)
        · exact all field listed
        · exact added

theorem isJson_map_nil : (Value.map []).IsJson := by
  have none : ([] : List (String × Value)).map Prod.fst = [] := rfl
  exact IsJson.map (none ▸ List.nodup_nil) (by simp)

end Value

namespace Json

variable {fuel : Nat} {cs rest : List Char} {value : Value} {items : List Value}
  {entries : List (Value × Value)}

theorem isJson_of_readWord {key : String} {word : Value} (json : word.IsJson)
    (read : readWord key word cs = .ok (value, rest)) : value.IsJson := by
  unfold readWord at read
  split at read
  · cases read
    exact json
  · cases read

theorem isJson_of_readNumber {negative : Bool} (read : readNumber negative cs = .ok (value, rest)) :
    value.IsJson := by
  simp only [readNumber] at read
  split at read
  · cases read
  · split at read
    · split at read
      · cases read
      · cases read
        exact .int _
    · cases read
      exact .float _

/-- With this fuel only such values are read. -/
structure ReadsJson (fuel : Nat) : Prop where
  value : ∀ {cs value rest}, readValue fuel cs = .ok (value, rest) → value.IsJson
  items : ∀ {items cs value rest}, (∀ item ∈ items, item.IsJson) →
    readItems fuel items cs = .ok (value, rest) → value.IsJson
  entries : ∀ {entries cs value rest}, (Value.map entries).IsJson →
    readEntries fuel entries cs = .ok (value, rest) → value.IsJson

theorem ReadsJson.readValue (reads : ReadsJson fuel)
    (read : readValue (fuel + 1) cs = .ok (value, rest)) : value.IsJson := by
  cases cs with
  | nil => cases read
  | cons c cs =>
    rw [Json.readValue.eq_def] at read
    dsimp only at read
    split at read
    · obtain ⟨⟨s, behind⟩, -, same⟩ := map_eq_ok.mp read
      cases same
      exact .text s
    · split at read
      · cases read
        exact .list (by simp)
      · exact reads.items (by simp) read
    · split at read
      · cases read
        exact Value.isJson_map_nil
      · exact reads.entries Value.isJson_map_nil read
    · exact isJson_of_readWord .null read
    · exact isJson_of_readWord (.bool true) read
    · exact isJson_of_readWord (.bool false) read
    · exact isJson_of_readWord (.float _) read
    · exact isJson_of_readWord (.float _) read
    · split at read
      · exact isJson_of_readWord (.float _) read
      · exact isJson_of_readNumber read
    · exact isJson_of_readNumber read

theorem ReadsJson.readItems (reads : ReadsJson fuel) (seen : ∀ item ∈ items, item.IsJson)
    (read : readItems (fuel + 1) items cs = .ok (value, rest)) : value.IsJson := by
  rw [Json.readItems.eq_def] at read
  dsimp only at read
  split at read
  · cases read
  · next item behind found =>
    have all : ∀ other ∈ item :: items, other.IsJson :=
      List.forall_mem_cons.mpr ⟨reads.value found, seen⟩
    split at read
    · exact reads.items all read
    · cases read
      exact .list fun other listed => all other (List.mem_reverse.mp listed)
    · cases read

theorem ReadsJson.readEntries (reads : ReadsJson fuel) (seen : (Value.map entries).IsJson)
    (read : readEntries (fuel + 1) entries cs = .ok (value, rest)) : value.IsJson := by
  rw [Json.readEntries.eq_def] at read
  dsimp only at read
  split at read
  · split at read
    · cases read
    · next key behind _ =>
      split at read
      · split at read
        · cases read
        · next found behind readFound =>
          have all := seen.put key (reads.value readFound)
          split at read
          · exact reads.entries all read
          · cases read
            exact all
          · cases read
      · cases read
  · cases read

theorem readsJson (fuel : Nat) : ReadsJson fuel := by
  induction fuel with
  | zero =>
    refine ⟨?_, ?_, ?_⟩
    · intro cs value rest read
      cases read
    · intro items cs value rest _ read
      cases read
    · intro entries cs value rest _ read
      cases read
  | succ fuel ih => exact ⟨ih.readValue, ih.readItems, ih.readEntries⟩

theorem isJson_of_read {text : String} (accepted : read text = .ok value) : value.IsJson := by
  simp only [read] at accepted
  split at accepted
  · cases accepted
  · next found behind readFound =>
    split at accepted
    · cases accepted
      exact (readsJson _).value readFound
    · cases accepted

end Json

end PromptPack
