import MessageRegistry.Resolution
import MessageRegistry.Schema.WellFormed

/-!
What a declared field means, told by the declarations alone. Main statements: which fields have a
form, and that reading a field finds its form.
-/
namespace MessageRegistry

theorem ScalarKind.isMapKey_iff (kind : ScalarKind) :
    kind.isMapKey = true ↔ kind ∉ [ScalarKind.double, .float, .bytes] := by
  cases kind <;> decide

theorem FieldDecl.element_plainForm {M E : Type} (field : FieldDecl M E) :
    field.plainForm.element = field.type := by
  unfold plainForm
  split <;> rfl

namespace Schema
variable {S : Schema} {strict : Bool} {owner : String} {field : S.Field}
variable {form : Form S.Message S.Enum}

/-- A field not typed by a map entry is read as it stands; one that is, as the map that the entry
describes. -/
inductive HasForm (S : Schema) (field : S.Field) : Form S.Message S.Enum → Prop
  | plain (h : ∀ entry, ¬ S.TypedByEntry field entry) : HasForm S field field.plainForm
  | map {entry : S.Message} {key value : S.Field} {kind : ScalarKind}
      (h : S.TypedByEntry field entry) (repeated : field.isRepeated = true)
      (fields : (S.message entry).fields = [key, value])
      (keyName : key.name = "key") (valueName : value.name = "value")
      (keySingle : key.isRepeated = false) (valueSingle : value.isRepeated = false)
      (keyType : key.type = .scalar kind) (mapKey : kind.isMapKey = true) :
      HasForm S field (.map kind value.type)

theorem TypedByEntry.unique {a b : S.Message} (ha : S.TypedByEntry field a)
    (hb : S.TypedByEntry field b) : a = b := by
  have h := ha.1.symm.trans hb.1
  simpa using h

theorem entry_fields_unique {entry : S.Message} {key value other last : S.Field}
    (h : (S.message entry).fields = [key, value]) (g : (S.message entry).fields = [other, last]) :
    key = other ∧ value = last := by
  have hsame := h.symm.trans g
  simpa using hsame

theorem exists_hasForm_iff :
    (∃ form, S.HasForm field form) ↔
      ∀ entry, S.TypedByEntry field entry → field.isRepeated = true ∧ S.ProperEntry entry := by
  constructor
  · rintro ⟨form, hform⟩ entry he
    cases hform with
    | plain h => exact absurd he (h entry)
    | @map other key value kind h hr hf hkn hvn hkr hvr hkt hmk =>
      obtain rfl := he.unique h
      exact ⟨hr, key, value, kind, hf, hkn, hvn, hkr, hvr, hkt, kind.isMapKey_iff.mp hmk⟩
  · intro h
    by_cases he : ∃ entry, S.TypedByEntry field entry
    · obtain ⟨entry, he⟩ := he
      obtain ⟨hr, key, value, kind, hf, hkn, hvn, hkr, hvr, hkt, hmk⟩ := h entry he
      exact ⟨_, .map he hr hf hkn hvn hkr hvr hkt (kind.isMapKey_iff.mpr hmk)⟩
    · exact ⟨_, .plain (not_exists.mp he)⟩

/-- The element of a field is that of its form. -/
theorem hasElement_iff (h : S.HasForm field form) {type : S.FieldType} :
    S.HasElement field type ↔ type = form.element := by
  cases h with
  | plain h =>
    rw [FieldDecl.element_plainForm]
    constructor
    · intro he
      cases he with
      | plain _ => rfl
      | mapValue he _ => exact absurd he (h _)
    · rintro rfl
      exact .plain h
  | @map entry key value kind h _ hf =>
    constructor
    · intro he
      cases he with
      | plain hn => exact absurd h (hn _)
      | mapValue ho hfo =>
        obtain rfl := h.unique ho
        obtain ⟨rfl, rfl⟩ := entry_fields_unique hf hfo
        rfl
    · rintro rfl
      exact .mapValue h hf

theorem mapForm?_eq_ok_iff {entry : S.Message} (he : S.TypedByEntry field entry)
    (hr : field.isRepeated = true) :
    field.mapForm? owner (S.message entry) = .ok form ↔ S.HasForm field form := by
  constructor
  · intro h
    unfold FieldDecl.mapForm? at h
    split at h
    · rename_i key value hf
      split at h
      · rename_i hproper
        obtain ⟨hkn, hvn, hkr, hvr⟩ := hproper
        split at h
        · rename_i kind hkt
          split at h
          · rename_i hmk
            cases h
            exact .map he hr hf hkn hvn (by simpa using hkr) (by simpa using hvr) hkt hmk
          · cases h
        · cases h
      · cases h
    · cases h
  · intro h
    cases h with
    | plain hn => exact absurd he (hn entry)
    | map ho _ hf hkn hvn hkr hvr hkt hmk =>
      obtain rfl := he.unique ho
      simp [FieldDecl.mapForm?, hf, hkn, hvn, hkr, hvr, hkt, hmk]

theorem form?_of_typedByEntry {entry : S.Message}
    (hident : strict = true → Name.isIdentifier field.name = true)
    (he : S.TypedByEntry field entry) :
    S.form? strict owner field =
      if field.isRepeated then field.mapForm? owner (S.message entry)
      else .error (.malformedMapEntry (S.messageName entry)) := by
  have hs : (strict && !Name.isIdentifier field.name) = false := by
    cases strict <;> simp_all
  simp [form?, hs, he.1, he.2]

theorem form?_of_plain (hident : strict = true → Name.isIdentifier field.name = true)
    (hn : ∀ entry, ¬ S.TypedByEntry field entry) :
    S.form? strict owner field = .ok field.plainForm := by
  have hs : (strict && !Name.isIdentifier field.name) = false := by
    cases strict <;> simp_all
  cases ht : field.type with
  | message target =>
    have hentry : (S.message target).isMapEntry = false := by
      simpa [TypedByEntry, ht] using hn target
    simp [form?, hs, ht, hentry]
  | scalar kind => simp [form?, hs, ht]
  | enum target => simp [form?, hs, ht]

/-- Reading a field gives its form, provided that its name is an identifier where it has to be. -/
theorem form?_eq_ok_iff :
    S.form? strict owner field = .ok form ↔
      (strict = true → Name.isIdentifier field.name = true) ∧ S.HasForm field form := by
  by_cases hident : strict = true → Name.isIdentifier field.name = true
  · rw [and_iff_right hident]
    by_cases he : ∃ entry, S.TypedByEntry field entry
    · obtain ⟨entry, he⟩ := he
      rw [form?_of_typedByEntry hident he]
      by_cases hr : field.isRepeated = true
      · rw [if_pos hr, mapForm?_eq_ok_iff he hr]
      · rw [if_neg hr]
        constructor
        · intro h
          cases h
        · intro h
          cases h with
          | plain hn => exact absurd he (hn entry)
          | map _ hr' => exact absurd hr' hr
    · have hn := not_exists.mp he
      rw [form?_of_plain hident hn]
      constructor
      · intro h
        cases h
        exact .plain hn
      · intro h
        cases h with
        | plain _ => rfl
        | map h => exact absurd h (hn _)
  · have hs : (strict && !Name.isIdentifier field.name) = true := by
      cases strict <;> simp_all
    simp [form?, hs, hident]

theorem hasElement_of_form? (h : S.form? strict owner field = .ok form) :
    S.HasElement field form.element :=
  (hasElement_iff (form?_eq_ok_iff.mp h).2).mpr rfl

end Schema
end MessageRegistry
