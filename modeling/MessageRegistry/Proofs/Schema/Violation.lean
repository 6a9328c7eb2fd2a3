import MessageRegistry.Proofs.Schema.Description

/-!
What the faults of one declaration say about it. Main statements: a field that cannot be read, a
message type whose fields cannot be indexed and an enum that cannot be described do break the rule
that the fault names.
-/
namespace MessageRegistry.Schema

structure IsPair (S : Schema) (entry : S.Message) (key value : S.Field) : Prop where
  fields : (S.message entry).fields = [key, value]
  keyName : key.name = "key"
  valueName : value.name = "value"
  keySingle : key.isRepeated = false
  valueSingle : value.isRepeated = false

/-- A field of the message type named `owner` breaks the rule that the fault names. -/
inductive FieldBreaks (S : Schema) (strict : Bool) (owner : String) (field : S.Field) :
    Fault → Prop
  | name (hs : strict = true) (h : Name.isIdentifier field.name = false) :
      FieldBreaks S strict owner field (.invalidFieldName owner field.name)
  | entry {entry : S.Message} (he : S.TypedByEntry field entry)
      (h : field.isRepeated = true → ∀ key value, ¬ S.IsPair entry key value) :
      FieldBreaks S strict owner field (.malformedMapEntry (S.messageName entry))
  | mapKey {entry : S.Message} {key value : S.Field} (he : S.TypedByEntry field entry)
      (hp : S.IsPair entry key value)
      (h : ∀ kind, key.type = .scalar kind → kind ∈ [ScalarKind.double, .float, .bytes]) :
      FieldBreaks S strict owner field (.unsupportedMapKey owner field.name)

/-- A message type breaks the rule that the fault names. -/
inductive Breaks (S : Schema) (strict : Bool) (m : S.Message) : Fault → Prop
  | field {field : S.Field} {fault : Fault} (hf : field ∈ (S.message m).fields)
      (h : S.FieldBreaks strict (S.messageName m) field fault) : Breaks S strict m fault
  | name {name : String} (h : List.Duplicate name ((S.message m).fields.map (·.name))) :
      Breaks S strict m (.duplicateFieldName (S.messageName m) name)
  | exportedName {name : String}
      (h : List.Duplicate name ((S.message m).fields.map fun field => Name.exported field.name)) :
      Breaks S strict m (.duplicateFieldName (S.messageName m) name)
  | number {number : UInt32} (h : List.Duplicate number ((S.message m).fields.map (·.number))) :
      Breaks S strict m (.duplicateFieldNumber (S.messageName m) number)

variable {S : Schema} {strict : Bool} {owner : String} {field : S.Field} {m : S.Message}
variable {fault : Fault}

theorem mapForm?_eq_error {entry : S.Message} (he : S.TypedByEntry field entry)
    (h : field.mapForm? owner (S.message entry) = .error fault) :
    S.FieldBreaks strict owner field fault := by
  unfold FieldDecl.mapForm? at h
  split at h
  · rename_i key value hf
    split at h
    · rename_i hproper
      obtain ⟨hkn, hvn, hkr, hvr⟩ := hproper
      have hp : S.IsPair entry key value := ⟨hf, hkn, hvn, by simpa using hkr, by simpa using hvr⟩
      split at h
      · rename_i kind hkt
        split at h
        · cases h
        · rename_i hmk
          cases h
          refine .mapKey he hp fun other ho => ?_
          rw [hkt] at ho
          cases ho
          exact Decidable.not_not.mp fun hn => hmk (kind.isMapKey_iff.mpr hn)
      · rename_i hkt
        cases h
        exact .mapKey he hp fun kind hk => absurd hk (hkt kind)
    · rename_i hproper
      cases h
      refine .entry he fun _ other last hp => hproper ?_
      obtain ⟨rfl, rfl⟩ := entry_fields_unique hf hp.fields
      simp [hp.keyName, hp.valueName, hp.keySingle, hp.valueSingle]
  · rename_i hf
    cases h
    exact .entry he fun _ key value hp => hf key value hp.fields

theorem form?_eq_error (h : S.form? strict owner field = .error fault) :
    S.FieldBreaks strict owner field fault := by
  by_cases hident : strict = true → Name.isIdentifier field.name = true
  · by_cases he : ∃ entry, S.TypedByEntry field entry
    · obtain ⟨entry, he⟩ := he
      rw [form?_of_typedByEntry hident he] at h
      split at h
      · exact mapForm?_eq_error he h
      · rename_i hr
        cases h
        exact .entry he fun hrepeated => absurd hrepeated hr
    · rw [form?_of_plain hident (not_exists.mp he)] at h
      cases h
  · obtain ⟨hs, hn⟩ := Classical.not_imp.mp hident
    rw [Bool.not_eq_true] at hn
    have hfault : S.form? strict owner field = .error (.invalidFieldName owner field.name) := by
      simp [form?, hs, hn]
    rw [hfault] at h
    cases h
    exact .name hs hn

theorem breaks_of_ofFields?_eq_error {infos : List FieldInfo}
    (h : S.ReadFields strict 0 (S.message m).fields infos)
    (hi : MessageInfo.ofFields? (S.messageName m) infos = .error fault) :
    S.Breaks strict m fault := by
  have hkeys := MessageInfo.ofFields?_eq_error hi
  rw [h.names, h.exportedNames, h.numbers] at hkeys
  rcases hkeys with ⟨name, hk, rfl⟩ | ⟨name, hk, rfl⟩ | ⟨number, hk, rfl⟩
  · exact .name hk
  · exact .exportedName hk
  · exact .number hk

theorem describe?_eq_error {e : S.Enum} (h : (S.enum e).describe? strict = .error fault) :
    ¬ S.WellFormedEnum strict e ∧ fault = .invalidEnum (S.enumName e) := by
  constructor
  · intro hwf
    rw [describe?_eq_ok_iff.mpr ⟨hwf, rfl⟩] at h
    cases h
  · unfold EnumDecl.describe? at h
    split at h
    · cases h
    · cases h
      rfl

end MessageRegistry.Schema
