import Mathlib.Data.Nat.Find
import MessageRegistry.Proofs.Info.FieldLookUp
import MessageRegistry.Resolution

/-!
Fields that collide. A field collides if it has the name, the exported name or the number of a field
before it. Main statement: fields without collisions make a description, whose tables lead from each
key to the position of its field; otherwise the fault tells the first collision, and the first key
that is shared there.
-/
namespace MessageRegistry

def Repeats {κ : Type} (key : FieldInfo → κ) (fields : List FieldInfo) (position : Nat) : Prop :=
  ∃ earlier < position, ∃ field other, fields[position]? = some field ∧
    fields[earlier]? = some other ∧ key other = key field

def Collides (fields : List FieldInfo) (position : Nat) : Prop :=
  Repeats (·.name) fields position ∨ Repeats (·.exportedName) fields position ∨
    Repeats (·.number) fields position

/-- The fault that names the first of its keys that the field at a position shares. -/
inductive Collision (typeName : String) (fields : List FieldInfo) (position : Nat) : Fault → Prop
  | name {field : FieldInfo} (hf : fields[position]? = some field)
      (h : Repeats (·.name) fields position) :
      Collision typeName fields position (.duplicateFieldName typeName field.name)
  | exportedName {field : FieldInfo} (hf : fields[position]? = some field)
      (hn : ¬ Repeats (·.name) fields position) (h : Repeats (·.exportedName) fields position) :
      Collision typeName fields position (.duplicateFieldName typeName field.exportedName)
  | number {field : FieldInfo} (hf : fields[position]? = some field)
      (hn : ¬ Repeats (·.name) fields position) (he : ¬ Repeats (·.exportedName) fields position)
      (h : Repeats (·.number) fields position) :
      Collision typeName fields position (.duplicateFieldNumber typeName field.number)

/-- The table leads from the key of each field to the field's position, and knows no other key. -/
def Table.Locates {κ : Type} [DecidableEq κ] (table : Table κ Nat) (key : FieldInfo → κ)
    (fields : List FieldInfo) : Prop :=
  ∀ k position, table.get? k = some position ↔
    ∃ field, fields[position]? = some field ∧ key field = k

section Repeats
variable {κ : Type} {key : FieldInfo → κ} {fields : List FieldInfo} {field : FieldInfo}
variable {position : Nat}

theorem repeats_iff (hf : fields[position]? = some field) :
    Repeats key fields position ↔ key field ∈ (fields.take position).map key := by
  rw [List.mem_map]
  constructor
  · rintro ⟨earlier, hlt, same, other, hs, ho, hkey⟩
    obtain rfl := Option.some.inj (hf.symm.trans hs)
    rw [← List.getElem?_take_of_lt hlt] at ho
    exact ⟨other, List.mem_of_getElem? ho, hkey⟩
  · rintro ⟨other, ho, hkey⟩
    obtain ⟨earlier, hlt, rfl⟩ := List.mem_take_iff_getElem.mp ho
    obtain ⟨hposition, hlength⟩ := Nat.lt_min.mp hlt
    exact ⟨earlier, hposition, field, _, hf, List.getElem?_eq_getElem hlength, hkey⟩

theorem Repeats.exists_field (h : Repeats key fields position) :
    ∃ field, fields[position]? = some field := by
  obtain ⟨_, _, field, _, hf, _⟩ := h
  exact ⟨field, hf⟩

theorem nodup_take_iff : ((fields.take position).map key).Nodup ↔
    ∀ earlier < position, ¬ Repeats key fields earlier := by
  induction position with
  | zero => simp
  | succ position ih =>
    rw [Nat.forall_lt_succ_right, ← ih, List.take_add_one, List.map_append]
    cases hf : fields[position]? with
    | none => simp [Repeats, hf]
    | some field =>
      rw [repeats_iff hf, Option.toList_some, List.map_singleton, List.nodup_append_comm]
      simp [and_comm]

theorem nodup_iff : (fields.map key).Nodup ↔ ∀ position, ¬ Repeats key fields position := by
  have h : ((fields.take fields.length).map key).Nodup ↔
      ∀ earlier < fields.length, ¬ Repeats key fields earlier := nodup_take_iff
  rw [List.take_length] at h
  rw [h]
  refine ⟨fun hn position hr => ?_, fun hn earlier _ => hn earlier⟩
  obtain ⟨field, hf⟩ := hr.exists_field
  exact hn position (List.getElem?_eq_some_iff.mp hf).1 hr

variable [DecidableEq κ]

theorem contains_enter_take (hf : fields[position]? = some field) :
    (Table.empty.enter key 0 (fields.take position)).contains (key field) = true ↔
      Repeats key fields position := by
  rw [Table.contains_enter, repeats_iff hf]
  simp [Table.contains]

theorem Table.locates_enter_empty (h : (fields.map key).Nodup) :
    (Table.empty.enter key 0 fields).Locates key fields := by
  intro k position
  rw [get?_enter_empty, List.findIdx?_eq_some_iff_getElem]
  constructor
  · rintro ⟨hlt, hkey, _⟩
    exact ⟨fields[position], List.getElem?_eq_getElem hlt, of_decide_eq_true hkey⟩
  · rintro ⟨field, hf, rfl⟩
    obtain ⟨hlt, rfl⟩ := List.getElem?_eq_some_iff.mp hf
    refine ⟨hlt, decide_eq_true rfl, fun earlier he hkey => ?_⟩
    refine nodup_iff.mp h position ⟨earlier, he, _, _, hf, ?_, of_decide_eq_true hkey⟩
    exact List.getElem?_eq_getElem (Nat.lt_trans he hlt)

end Repeats

namespace FieldIndex
variable {owner : String} {index : FieldIndex} {position : Nat} {before rest : List FieldInfo}

theorem addAll?_append (h : index.Accepts before) :
    index.addAll? owner position (before ++ rest) =
      (index.enter position before).addAll? owner (position + before.length) rest := by
  induction before generalizing index position with
  | nil => rw [enter_nil, List.nil_append, List.length_nil, Nat.add_zero]
  | cons field before ih =>
    obtain ⟨hadm, hrest⟩ := (accepts_cons index position field before).mp h
    rw [List.cons_append, addAll?, add?_of_admits hadm, enter_cons hadm, List.length_cons,
      Nat.add_comm before.length, ← Nat.add_assoc]
    exact ih hrest

end FieldIndex

section Collision
variable {name : String} {fields : List FieldInfo} {position : Nat} {fault : Fault}

theorem collides_iff :
    Collides fields position ↔ ∃ fault, Collision name fields position fault := by
  constructor
  · intro h
    by_cases hn : Repeats (·.name) fields position
    · obtain ⟨field, hf⟩ := hn.exists_field
      exact ⟨_, .name hf hn⟩
    · by_cases he : Repeats (·.exportedName) fields position
      · obtain ⟨field, hf⟩ := he.exists_field
        exact ⟨_, .exportedName hf hn he⟩
      · have hu := (h.resolve_left hn).resolve_left he
        obtain ⟨field, hf⟩ := hu.exists_field
        exact ⟨_, .number hf hn he hu⟩
  · rintro ⟨fault, h⟩
    cases h with
    | name _ h => exact Or.inl h
    | exportedName _ _ h => exact Or.inr (Or.inl h)
    | number _ _ _ h => exact Or.inr (Or.inr h)

theorem accepts_take_iff : FieldIndex.empty.Accepts (fields.take position) ↔
    ∀ earlier < position, ¬ Collides fields earlier := by
  simp only [FieldIndex.accepts_empty_iff, nodup_take_iff, Collides, not_or, ← forall_and]

theorem add?_of_collision {field : FieldInfo} (h : Collision name fields position fault)
    (hf : fields[position]? = some field) :
    (FieldIndex.empty.enter 0 (fields.take position)).add? name position field = .error fault := by
  have hname : (FieldIndex.empty.enter 0 (fields.take position)).byName.contains field.name =
      true ↔ Repeats (·.name) fields position := contains_enter_take hf
  have hexported : (FieldIndex.empty.enter 0 (fields.take position)).byExportedName.contains
      field.exportedName = true ↔ Repeats (·.exportedName) fields position := contains_enter_take hf
  have hnumber : (FieldIndex.empty.enter 0 (fields.take position)).byNumber.contains
      field.number = true ↔ Repeats (·.number) fields position := contains_enter_take hf
  unfold FieldIndex.add?
  cases h with
  | name hs h =>
    obtain rfl := Option.some.inj (hf.symm.trans hs)
    rw [if_pos (hname.mpr h)]
  | exportedName hs hn h =>
    obtain rfl := Option.some.inj (hf.symm.trans hs)
    rw [if_neg (hname.not.mpr hn), if_pos (hexported.mpr h)]
  | number hs hn he h =>
    obtain rfl := Option.some.inj (hf.symm.trans hs)
    rw [if_neg (hname.not.mpr hn), if_neg (hexported.not.mpr he), if_pos (hnumber.mpr h)]

theorem Collision.exists_field (h : Collision name fields position fault) :
    ∃ field, fields[position]? = some field := by
  cases h with
  | name hf _ | exportedName hf _ _ | number hf _ _ _ => exact ⟨_, hf⟩

namespace MessageInfo

/-- Fields are entered up to the first collision, and there the pass ends. -/
theorem ofFields?_of_collision (hfirst : ∀ earlier < position, ¬ Collides fields earlier)
    (h : Collision name fields position fault) : ofFields? name fields = .error fault := by
  obtain ⟨field, hf⟩ := h.exists_field
  obtain ⟨hlt, hget⟩ := List.getElem?_eq_some_iff.mp hf
  have hlength : 0 + (fields.take position).length = position := by
    rw [Nat.zero_add, List.length_take_of_le (Nat.le_of_lt hlt)]
  have hstop : FieldIndex.empty.addAll? name 0 fields = .error fault :=
    calc FieldIndex.empty.addAll? name 0 fields
        = FieldIndex.empty.addAll? name 0
            (fields.take position ++ field :: fields.drop (position + 1)) := by
          rw [← hget, List.getElem_cons_drop, List.take_append_drop]
      _ = (FieldIndex.empty.enter 0 (fields.take position)).addAll? name position
            (field :: fields.drop (position + 1)) := by
          rw [FieldIndex.addAll?_append (accepts_take_iff.mpr hfirst), hlength]
      _ = .error fault := by rw [FieldIndex.addAll?, add?_of_collision h hf]
  rw [ofFields?, hstop]

theorem exists_first_collision (h : ¬ FieldIndex.empty.Accepts fields) :
    ∃ position, (∀ earlier < position, ¬ Collides fields earlier) ∧ Collides fields position := by
  classical
  have hexists : ∃ position, Collides fields position := by
    by_contra hnone
    apply h
    rw [← List.take_length (l := fields), accepts_take_iff]
    exact fun position _ hc => hnone ⟨position, hc⟩
  exact ⟨Nat.find hexists, fun _ => Nat.find_min hexists, Nat.find_spec hexists⟩

/-- Fields make a description exactly if no two of them share a name, an exported name or a number,
and then the tables are the maps from keys to positions. Otherwise the fault tells of the first
field that has a key of an earlier one: its name if that is shared, else its exported name if that
is shared, else its number. -/
theorem ofFields?_tells_first_collision (name : String) (fields : List FieldInfo) :
    ((∃ info, ofFields? name fields = .ok info) ↔
      (fields.map (·.name)).Nodup ∧ (fields.map (·.exportedName)).Nodup ∧
        (fields.map (·.number)).Nodup) ∧
    (∀ info, ofFields? name fields = .ok info → info.name = name ∧ info.fields = fields ∧
      info.index.byName.Locates (·.name) fields ∧
      info.index.byExportedName.Locates (·.exportedName) fields ∧
      info.index.byNumber.Locates (·.number) fields) ∧
    ∀ fault, ofFields? name fields = .error fault ↔
      ∃ position, (∀ earlier < position, ¬ Collides fields earlier) ∧
        Collision name fields position fault := by
  refine ⟨?_, ?_, ?_⟩
  · simp only [ofFields?_eq_ok_iff, ← and_assoc, exists_and_left, exists_eq, and_true]
  · intro info h
    obtain ⟨hn, he, hu, rfl⟩ := ofFields?_eq_ok_iff.mp h
    exact ⟨rfl, rfl, Table.locates_enter_empty hn, Table.locates_enter_empty he,
      Table.locates_enter_empty hu⟩
  · intro fault
    constructor
    · intro h
      have hrefused : ¬ FieldIndex.empty.Accepts fields := by
        intro hall
        obtain ⟨hn, he, hu⟩ := FieldIndex.accepts_empty_iff.mp hall
        rw [ofFields?_eq_ok_iff.mpr ⟨hn, he, hu, rfl⟩] at h
        cases h
      obtain ⟨position, hfirst, hcollides⟩ := exists_first_collision hrefused
      obtain ⟨told, hcollision⟩ := collides_iff.mp hcollides
      obtain rfl := Except.error.inj (h.symm.trans (ofFields?_of_collision hfirst hcollision))
      exact ⟨position, hfirst, hcollision⟩
    · rintro ⟨position, hfirst, hcollision⟩
      exact ofFields?_of_collision hfirst hcollision

end MessageInfo
end Collision

/-- The third field has the exported name of the second and the number of the first, and the last
one the name of the first. -/
def collidingFields : List FieldInfo :=
  [.scalar "total" 1 .bool, .scalar "row_sum" 2 .bool, .scalar "row__sum" 1 .bool,
    .scalar "total" 3 .bool].map fun field : Schema.empty.Field =>
      Schema.empty.describeField 0 field field.plainForm

theorem MessageInfo.ofFields?_collidingFields :
    ofFields? "s.Sheet" collidingFields = .error (.duplicateFieldName "s.Sheet" "RowSum") ∧
    ∃ position, (∀ earlier < position, ¬ Collides collidingFields earlier) ∧
      Collision "s.Sheet" collidingFields position (.duplicateFieldName "s.Sheet" "RowSum") := by
  have herror : ofFields? "s.Sheet" collidingFields =
      .error (.duplicateFieldName "s.Sheet" "RowSum") := by
    decide +kernel
  exact ⟨herror, ((ofFields?_tells_first_collision _ _).2.2 _).mp herror⟩

end MessageRegistry
