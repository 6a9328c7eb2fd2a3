import Mathlib.Data.List.Duplicate
import MessageRegistry.Info

/-!
Indexing the fields of a message type. Main statements: fields are indexed exactly when no two of
them share a name, an exported name or a number, and then each table lists one key of every field
with the field's position; otherwise the fault names a key that two fields share.
-/
namespace MessageRegistry

namespace Table
variable {κ : Type} [DecidableEq κ]

def positions (key : FieldInfo → κ) (position : Nat) (fields : List FieldInfo) : List (κ × Nat) :=
  (fields.zipIdx position).map fun entry => (key entry.1, entry.2)

/-- No two fields share a key, and none has a key of the table. -/
def Accepts (table : Table κ Nat) (key : FieldInfo → κ) (fields : List FieldInfo) : Prop :=
  (fields.map key).Nodup ∧ ∀ field ∈ fields, table.contains (key field) = false

def enter (table : Table κ Nat) (key : FieldInfo → κ) (position : Nat)
    (fields : List FieldInfo) : Table κ Nat :=
  ⟨table.entries ++ positions key position fields⟩

theorem accepts_nil (table : Table κ Nat) (key : FieldInfo → κ) : table.Accepts key [] := by
  simp [Accepts]

omit [DecidableEq κ] in
theorem enter_nil (table : Table κ Nat) (key : FieldInfo → κ) (position : Nat) :
    table.enter key position [] = table := by
  simp [enter, positions]

theorem accepts_cons (table : Table κ Nat) (key : FieldInfo → κ) (position : Nat)
    (field : FieldInfo) (fields : List FieldInfo) :
    table.Accepts key (field :: fields) ↔
      table.contains (key field) = false ∧
        (table.insert (key field) position).Accepts key fields := by
  simp only [Accepts, List.map_cons, List.nodup_cons, List.mem_map, List.mem_cons,
    forall_eq_or_imp, contains_insert, Bool.or_eq_false_iff, decide_eq_false_iff_not]
  constructor
  · rintro ⟨⟨hk, hn⟩, hf, hr⟩
    exact ⟨hf, hn, fun other ho => ⟨fun he => hk ⟨other, ho, he.symm⟩, hr other ho⟩⟩
  · rintro ⟨hf, hn, hr⟩
    have hk : ¬ ∃ other ∈ fields, key other = key field := by
      rintro ⟨other, ho, he⟩
      exact (hr other ho).1 he.symm
    exact ⟨⟨hk, hn⟩, hf, fun other ho => (hr other ho).2⟩

theorem enter_cons (table : Table κ Nat) (key : FieldInfo → κ) (position : Nat)
    (field : FieldInfo) (fields : List FieldInfo) (h : table.contains (key field) = false) :
    table.enter key position (field :: fields) =
      (table.insert (key field) position).enter key (position + 1) fields := by
  have hn : find (key field) table.entries = none := by simpa [contains, get?] using h
  simp [enter, positions, insert, put_of_find_none _ _ _ hn]

theorem contains_enter (table : Table κ Nat) (key : FieldInfo → κ) (position : Nat)
    (fields : List FieldInfo) (k : κ) :
    (table.enter key position fields).contains k = true ↔
      table.contains k = true ∨ k ∈ fields.map key := by
  have hkeys : (positions key position fields).map Prod.fst = fields.map key := by
    calc (positions key position fields).map Prod.fst
        = ((fields.zipIdx position).map Prod.fst).map key := by
          simp only [positions, List.map_map, Function.comp_def]
      _ = fields.map key := by rw [List.zipIdx_map_fst]
  rw [contains_iff, contains_iff, enter, keys, List.map_append, List.mem_append, hkeys, keys]

end Table

namespace FieldIndex
variable {owner : String} {index final : FieldIndex} {position : Nat}
variable {field : FieldInfo} {fields : List FieldInfo}

/-- No field of the index has a key of this one. -/
structure Admits (index : FieldIndex) (field : FieldInfo) : Prop where
  name : index.byName.contains field.name = false
  exportedName : index.byExportedName.contains field.exportedName = false
  number : index.byNumber.contains field.number = false

def insert (index : FieldIndex) (position : Nat) (field : FieldInfo) : FieldIndex where
  byName := index.byName.insert field.name position
  byExportedName := index.byExportedName.insert field.exportedName position
  byNumber := index.byNumber.insert field.number position

/-- The fields keep apart from each other and from those of the index under all three keys. -/
structure Accepts (index : FieldIndex) (fields : List FieldInfo) : Prop where
  names : index.byName.Accepts (·.name) fields
  exportedNames : index.byExportedName.Accepts (·.exportedName) fields
  numbers : index.byNumber.Accepts (·.number) fields

def enter (index : FieldIndex) (position : Nat) (fields : List FieldInfo) : FieldIndex where
  byName := index.byName.enter (·.name) position fields
  byExportedName := index.byExportedName.enter (·.exportedName) position fields
  byNumber := index.byNumber.enter (·.number) position fields

def ofFields (fields : List FieldInfo) : FieldIndex := empty.enter 0 fields

theorem accepts_nil (index : FieldIndex) : index.Accepts [] :=
  ⟨Table.accepts_nil _ _, Table.accepts_nil _ _, Table.accepts_nil _ _⟩

theorem enter_nil (index : FieldIndex) (position : Nat) : index.enter position [] = index := by
  simp only [enter, Table.enter_nil]

theorem accepts_cons (index : FieldIndex) (position : Nat) (field : FieldInfo)
    (fields : List FieldInfo) :
    index.Accepts (field :: fields) ↔
      index.Admits field ∧ (index.insert position field).Accepts fields := by
  constructor
  · rintro ⟨hn, he, hu⟩
    obtain ⟨hn, hns⟩ := (Table.accepts_cons _ _ position _ _).mp hn
    obtain ⟨he, hes⟩ := (Table.accepts_cons _ _ position _ _).mp he
    obtain ⟨hu, hus⟩ := (Table.accepts_cons _ _ position _ _).mp hu
    exact ⟨⟨hn, he, hu⟩, ⟨hns, hes, hus⟩⟩
  · rintro ⟨⟨hn, he, hu⟩, ⟨hns, hes, hus⟩⟩
    exact ⟨(Table.accepts_cons _ _ position _ _).mpr ⟨hn, hns⟩,
      (Table.accepts_cons _ _ position _ _).mpr ⟨he, hes⟩,
      (Table.accepts_cons _ _ position _ _).mpr ⟨hu, hus⟩⟩

theorem enter_cons (h : index.Admits field) (position : Nat) (fields : List FieldInfo) :
    index.enter position (field :: fields) =
      (index.insert position field).enter (position + 1) fields := by
  simp only [enter, Table.enter_cons _ (·.name) _ _ _ h.name,
    Table.enter_cons _ (·.exportedName) _ _ _ h.exportedName,
    Table.enter_cons _ (·.number) _ _ _ h.number, insert]

/-- Nothing but each other keeps fields out of the empty index. -/
theorem accepts_empty_iff :
    empty.Accepts fields ↔ (fields.map (·.name)).Nodup ∧ (fields.map (·.exportedName)).Nodup ∧
      (fields.map (·.number)).Nodup := by
  constructor
  · intro h
    exact ⟨h.names.1, h.exportedNames.1, h.numbers.1⟩
  · rintro ⟨hn, he, hu⟩
    exact ⟨⟨hn, fun _ _ => rfl⟩, ⟨he, fun _ _ => rfl⟩, ⟨hu, fun _ _ => rfl⟩⟩

theorem add?_of_admits (h : index.Admits field) :
    index.add? owner position field = .ok (index.insert position field) := by
  simp [add?, h.name, h.exportedName, h.number, insert]

theorem admits_of_add?_eq_ok (h : index.add? owner position field = .ok final) :
    index.Admits field := by
  unfold add? at h
  split at h
  · cases h
  · split at h
    · cases h
    · split at h
      · cases h
      · constructor <;> simp_all

theorem addAll?_eq_ok_iff :
    index.addAll? owner position fields = .ok final ↔
      index.Accepts fields ∧ final = index.enter position fields := by
  induction fields generalizing index position with
  | nil => simp [addAll?, enter_nil, accepts_nil, eq_comm]
  | cons field fields ih =>
    rw [accepts_cons index position]
    constructor
    · intro h
      simp only [addAll?] at h
      cases ha : index.add? owner position field with
      | error fault => simp [ha] at h
      | ok next =>
        have hadm := admits_of_add?_eq_ok ha
        rw [add?_of_admits hadm] at h
        obtain ⟨hrest, rfl⟩ := ih.mp h
        exact ⟨⟨hadm, hrest⟩, (enter_cons hadm position fields).symm⟩
    · rintro ⟨⟨hadm, hrest⟩, rfl⟩
      simp only [addAll?, add?_of_admits hadm]
      exact ih.mpr ⟨hrest, enter_cons hadm position fields⟩

theorem add?_eq_error {fault : Fault} (h : index.add? owner position field = .error fault) :
    index.byName.contains field.name = true ∧ fault = .duplicateFieldName owner field.name ∨
      index.byExportedName.contains field.exportedName = true ∧
        fault = .duplicateFieldName owner field.exportedName ∨
      index.byNumber.contains field.number = true ∧
        fault = .duplicateFieldNumber owner field.number := by
  unfold add? at h
  split at h
  · rename_i hn
    cases h
    exact Or.inl ⟨hn, rfl⟩
  · split at h
    · rename_i he
      cases h
      exact Or.inr (Or.inl ⟨he, rfl⟩)
    · split at h
      · rename_i hu
        cases h
        exact Or.inr (Or.inr ⟨hu, rfl⟩)
      · cases h

/-- The pass stops at the first field that cannot be entered behind the fields before it. -/
theorem addAll?_eq_error {fault : Fault} (h : index.addAll? owner position fields = .error fault) :
    ∃ before field after, fields = before ++ field :: after ∧ index.Accepts before ∧
      (index.enter position before).add? owner (position + before.length) field =
        .error fault := by
  induction fields generalizing index position with
  | nil => cases h
  | cons field fields ih =>
    simp only [addAll?] at h
    cases ha : index.add? owner position field with
    | error other =>
      simp only [ha, Except.error.injEq] at h
      subst h
      exact ⟨[], field, fields, rfl, accepts_nil index, by simpa [enter_nil] using ha⟩
    | ok next =>
      have hadm := admits_of_add?_eq_ok ha
      rw [add?_of_admits hadm] at h
      obtain ⟨before, other, after, rfl, hacc, ho⟩ := ih h
      refine ⟨field :: before, other, after, rfl, ?_, ?_⟩
      · exact (accepts_cons index position field before).mpr ⟨hadm, hacc⟩
      · rw [enter_cons hadm, List.length_cons, ← Nat.add_assoc, Nat.add_right_comm]
        exact ho

end FieldIndex

namespace MessageInfo

/-- Fields with pairwise distinct keys, and only those, make a description. -/
theorem ofFields?_eq_ok_iff {name : String} {fields : List FieldInfo} {info : MessageInfo} :
    ofFields? name fields = .ok info ↔
      (fields.map (·.name)).Nodup ∧ (fields.map (·.exportedName)).Nodup ∧
        (fields.map (·.number)).Nodup ∧ info = ⟨name, fields, .ofFields fields⟩ := by
  unfold ofFields?
  constructor
  · intro h
    cases ha : FieldIndex.empty.addAll? name 0 fields with
    | error fault => simp [ha] at h
    | ok index =>
      simp only [ha, Except.ok.injEq] at h
      obtain ⟨hall, rfl⟩ := FieldIndex.addAll?_eq_ok_iff.mp ha
      obtain ⟨hn, he, hu⟩ := FieldIndex.accepts_empty_iff.mp hall
      exact ⟨hn, he, hu, h.symm⟩
  · rintro ⟨hn, he, hu, rfl⟩
    have ha : FieldIndex.empty.addAll? name 0 fields = .ok (.ofFields fields) :=
      FieldIndex.addAll?_eq_ok_iff.mpr ⟨FieldIndex.accepts_empty_iff.mpr ⟨hn, he, hu⟩, rfl⟩
    simp [ha]

theorem name_of_ofFields? {name : String} {fields : List FieldInfo} {info : MessageInfo}
    (h : ofFields? name fields = .ok info) : info.name = name := by
  obtain ⟨_, _, _, rfl⟩ := ofFields?_eq_ok_iff.mp h
  rfl

theorem fields_of_ofFields? {name : String} {fields : List FieldInfo} {info : MessageInfo}
    (h : ofFields? name fields = .ok info) : info.fields = fields := by
  obtain ⟨_, _, _, rfl⟩ := ofFields?_eq_ok_iff.mp h
  rfl

theorem duplicate_of_contains_enter {κ : Type} [DecidableEq κ] {key : FieldInfo → κ} {k : κ}
    {before after : List FieldInfo} {field : FieldInfo} (hk : key field = k)
    (h : (Table.empty.enter key 0 before).contains k = true) :
    List.Duplicate k ((before ++ field :: after).map key) := by
  have hbefore : k ∈ before.map key := by
    rcases (Table.contains_enter _ _ _ _ _).mp h with h | h
    · cases h
    · exact h
  have hrest : k ∈ (field :: after).map key := by simp [hk]
  rw [List.map_append, List.duplicate_iff_sublist]
  exact (List.singleton_sublist.mpr hbefore).append (List.singleton_sublist.mpr hrest)

theorem ofFields?_eq_error {name : String} {fields : List FieldInfo} {fault : Fault}
    (h : ofFields? name fields = .error fault) :
    (∃ k, List.Duplicate k (fields.map (·.name)) ∧ fault = .duplicateFieldName name k) ∨
      (∃ k, List.Duplicate k (fields.map (·.exportedName)) ∧
        fault = .duplicateFieldName name k) ∨
      ∃ k, List.Duplicate k (fields.map (·.number)) ∧ fault = .duplicateFieldNumber name k := by
  unfold ofFields? at h
  cases ha : FieldIndex.empty.addAll? name 0 fields with
  | ok index => simp [ha] at h
  | error other =>
    simp only [ha, Except.error.injEq] at h
    subst h
    obtain ⟨before, field, after, rfl, _, hadd⟩ := FieldIndex.addAll?_eq_error ha
    rcases FieldIndex.add?_eq_error hadd with ⟨hk, rfl⟩ | ⟨hk, rfl⟩ | ⟨hk, rfl⟩
    · exact Or.inl ⟨_, duplicate_of_contains_enter rfl hk, rfl⟩
    · exact Or.inr (Or.inl ⟨_, duplicate_of_contains_enter rfl hk, rfl⟩)
    · exact Or.inr (Or.inr ⟨_, duplicate_of_contains_enter rfl hk, rfl⟩)

end MessageInfo
end MessageRegistry
