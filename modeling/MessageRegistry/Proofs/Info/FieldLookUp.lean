import MessageRegistry.Proofs.General
import MessageRegistry.Proofs.Info.FieldIndex
import MessageRegistry.Proofs.Name

/-!
Looking up the fields of a described message type. Main statements: the tables lead to the first
field with a key; where keys are distinct this is the field itself, and no declared name hides the
exported name of another field.
-/
namespace MessageRegistry

namespace Table
variable {κ : Type} [DecidableEq κ]

theorem find_positions (key : FieldInfo → κ) (k : κ) (position : Nat) (fields : List FieldInfo) :
    find k (positions key position fields) =
      (fields.findIdx? fun field => key field = k).map (· + position) := by
  induction fields generalizing position with
  | nil => rfl
  | cons field fields ih =>
    have hrest := ih (position + 1)
    unfold positions at hrest ⊢
    by_cases hk : key field = k
    · simp [find, List.findIdx?_cons, hk]
    · simp [find, List.findIdx?_cons, hk, hrest, Function.comp_def, Nat.add_assoc,
        Nat.add_comm 1 position]

theorem get?_enter_empty (key : FieldInfo → κ) (fields : List FieldInfo) (k : κ) :
    (empty.enter key 0 fields).get? k = fields.findIdx? fun field => key field = k := by
  have h := find_positions key k 0 fields
  simpa [get?, enter, empty] using h

omit [DecidableEq κ] in
theorem lt_of_mem_values_enter_empty {key : FieldInfo → κ} {fields : List FieldInfo} {i : Nat}
    (h : i ∈ (empty.enter key 0 fields).values) : i < fields.length := by
  simp only [values, enter, empty, positions, List.nil_append, List.map_map, List.mem_map,
    Function.comp_apply] at h
  obtain ⟨entry, he, rfl⟩ := h
  exact List.snd_lt_of_mem_zipIdx he

end Table

namespace MessageInfo

/-- Fields are listed at their positions under distinct keys, and the index lists them. -/
structure Indexed (message : MessageInfo) : Prop where
  index : message.index = .ofFields message.fields
  position : ∀ (position : Nat) (field : FieldInfo), message.fields[position]? = some field →
    field.index = position
  exportedName : ∀ field ∈ message.fields, field.exportedName = Name.exported field.name
  names : (message.fields.map (·.name)).Nodup
  exportedNames : (message.fields.map (·.exportedName)).Nodup
  numbers : (message.fields.map (·.number)).Nodup

variable {message : MessageInfo} {field : FieldInfo} {query : String} {number : UInt32}

/-- The declared name is looked for in all fields before any exported name. -/
theorem fieldNamed?_eq (h : message.index = .ofFields message.fields) (query : String) :
    message.fieldNamed? query = (message.fields.find? fun field => field.name = query).or
      (message.fields.find? fun field => field.exportedName = query) := by
  have hname : message.index.byName.get? query =
      message.fields.findIdx? fun field => field.name = query := by
    rw [h]
    exact Table.get?_enter_empty _ _ _
  have hexported : message.index.byExportedName.get? query =
      message.fields.findIdx? fun field => field.exportedName = query := by
    rw [h]
    exact Table.get?_enter_empty _ _ _
  rw [fieldNamed?, hname, hexported, List.find?_eq_bind_findIdx?_getElem?,
    List.find?_eq_bind_findIdx?_getElem?]
  cases hi : message.fields.findIdx? fun field => field.name = query with
  | none => rfl
  | some i =>
    have hlt := (List.findIdx?_eq_some_iff_findIdx_eq.mp hi).1
    simp [fieldAt?, hlt]

theorem fieldNumbered?_eq (h : message.index = .ofFields message.fields) (number : UInt32) :
    message.fieldNumbered? number = message.fields.find? fun field => field.number = number := by
  have hnumber : message.index.byNumber.get? number =
      message.fields.findIdx? fun field => field.number = number := by
    rw [h]
    exact Table.get?_enter_empty _ _ _
  rw [fieldNumbered?, hnumber, List.find?_eq_bind_findIdx?_getElem?]
  rfl

namespace Indexed

theorem fieldNamed?_name (h : message.Indexed) (hf : field ∈ message.fields) :
    message.fieldNamed? field.name = some field := by
  rw [fieldNamed?_eq h.index, find?_key h.names hf, Option.some_or]

/-- A field whose name is the exported name of another field has that exported name too, so it is
the other field. -/
theorem eq_of_name_eq_exportedName (h : message.Indexed) {other : FieldInfo}
    (ho : other ∈ message.fields) (hf : field ∈ message.fields)
    (hname : other.name = field.exportedName) : other = field := by
  have hexported : other.exportedName = field.exportedName :=
    calc other.exportedName
        = Name.exported field.exportedName := by rw [h.exportedName other ho, hname]
      _ = Name.exported (Name.exported field.name) := by rw [h.exportedName field hf]
      _ = Name.exported field.name := Name.exported_exported field.name
      _ = field.exportedName := (h.exportedName field hf).symm
  exact List.inj_on_of_nodup_map h.exportedNames ho hf hexported

theorem fieldNamed?_exportedName (h : message.Indexed) (hf : field ∈ message.fields) :
    message.fieldNamed? field.exportedName = some field := by
  rw [fieldNamed?_eq h.index, find?_key h.exportedNames hf]
  cases hfind : message.fields.find? fun other => other.name = field.exportedName with
  | none => rfl
  | some other =>
    have hname : other.name = field.exportedName := by simpa using List.find?_some hfind
    rw [h.eq_of_name_eq_exportedName (List.mem_of_find?_eq_some hfind) hf hname]
    rfl

theorem fieldNumbered?_number (h : message.Indexed) (hf : field ∈ message.fields) :
    message.fieldNumbered? field.number = some field := by
  rw [fieldNumbered?_eq h.index, find?_key h.numbers hf]

theorem fieldAt?_index (h : message.Indexed) (hf : field ∈ message.fields) :
    message.fieldAt? field.index = some field := by
  obtain ⟨position, hp⟩ := List.mem_iff_getElem?.mp hf
  rwa [fieldAt?, h.position position field hp]

theorem of_fieldNamed? (h : message.Indexed) (hq : message.fieldNamed? query = some field) :
    field ∈ message.fields ∧ (field.name = query ∨ field.exportedName = query) := by
  rw [fieldNamed?_eq h.index, Option.or_eq_some_iff] at hq
  rcases hq with hfind | ⟨_, hfind⟩
  · exact ⟨List.mem_of_find?_eq_some hfind, Or.inl (by simpa using List.find?_some hfind)⟩
  · exact ⟨List.mem_of_find?_eq_some hfind, Or.inr (by simpa using List.find?_some hfind)⟩

theorem of_fieldNumbered? (h : message.Indexed)
    (hn : message.fieldNumbered? number = some field) :
    field ∈ message.fields ∧ field.number = number := by
  rw [fieldNumbered?_eq h.index] at hn
  exact ⟨List.mem_of_find?_eq_some hn, by simpa using List.find?_some hn⟩

theorem lt_fieldCount (h : message.Indexed) {position : Nat}
    (hp : position ∈ message.index.byName.values ∨ position ∈ message.index.byExportedName.values ∨
      position ∈ message.index.byNumber.values) : position < message.fieldCount := by
  rw [h.index] at hp
  rcases hp with hp | hp | hp <;> exact Table.lt_of_mem_values_enter_empty hp

end Indexed
end MessageInfo
end MessageRegistry
