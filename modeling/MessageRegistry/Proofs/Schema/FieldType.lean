import MessageRegistry.Proofs.Schema.Description

/-!
What the semantic type of a field tells of the field. A field holds one element, a list of elements
or a map of them, and its type is made from that of the element. Main statement: the stored flags,
element kind, type name and type of a field agree, whatever the element's type is called.
-/
namespace MessageRegistry

namespace WellKnown

def seededNames : List String := WellKnownMessage.seeded.map (·.name)

/-- These are the message types that are not seen as messages. -/
theorem mem_seededNames_iff {typeName : String} :
    typeName ∈ seededNames ↔ ∃ type, (typeName, type) ∈ messageTypes := by
  have hkeys : seededNames.Perm (messageTypes.map (·.1)) := by decide
  rw [hkeys.mem_iff, List.mem_map]
  constructor
  · rintro ⟨⟨name, type⟩, h, rfl⟩
    exact ⟨type, h⟩
  · rintro ⟨type, h⟩
    exact ⟨_, h, rfl⟩

/-- The semantic type of a well-known type stands for itself. -/
theorem not_mentions_of_mem_messageTypes {typeName name : String} {type : SemanticType}
    (h : (typeName, type) ∈ messageTypes) : ¬ type.Mentions name := by
  have htable : ∀ entry ∈ messageTypes, ¬ entry.2.Mentions name := by
    simp [messageTypes, SemanticType.Mentions]
  exact htable _ h

theorem wrappedPrimitive?_eq_some_iff {typeName : String} {kind : Primitive} :
    wrappedPrimitive? typeName = some kind ↔ (typeName, .wrapper kind) ∈ messageTypes := by
  rw [mem_messageTypes_iff, messageType?_eq_bind, wrappedPrimitive?]
  cases WellKnownMessage.ofName? typeName with
  | none => simp
  | some message =>
    cases message <;> simp [WellKnownMessage.semanticType?, WellKnownMessage.wrappedKind?]

end WellKnown

namespace Element
variable {typeName : String} {type : SemanticType}

theorem type_message_eq_iff :
    (message typeName).type = type ↔
      (typeName, type) ∈ WellKnown.messageTypes ∨
        typeName ∉ WellKnown.seededNames ∧ type = .message typeName := by
  rw [WellKnown.mem_seededNames_iff]
  simp only [WellKnown.mem_messageTypes_iff, Element.type]
  cases WellKnown.messageType? typeName with
  | none => simp [eq_comm]
  | some other => simp

theorem type_enum_eq_iff :
    (enum typeName).type = type ↔
      typeName = "google.protobuf.NullValue" ∧ type = .null ∨
        typeName ≠ "google.protobuf.NullValue" ∧ type = .primitive .int64 := by
  rw [Element.type, WellKnown.enumType?, WellKnown.nullValueName]
  split <;> simp_all [eq_comm]

theorem type_eq_iff {element : Element} :
    element.type = type ↔
      (∃ kind, element = .scalar kind ∧ type = .primitive kind.primitive) ∨
      (∃ typeName, element = .message typeName ∧
        ((typeName, type) ∈ WellKnown.messageTypes ∨
          typeName ∉ WellKnown.seededNames ∧ type = .message typeName)) ∨
      ∃ typeName, element = .enum typeName ∧
        (typeName = "google.protobuf.NullValue" ∧ type = .null ∨
          typeName ≠ "google.protobuf.NullValue" ∧ type = .primitive .int64) := by
  cases element with
  | scalar kind => simp [Element.type, eq_comm]
  | message typeName => simp [type_message_eq_iff]
  | enum typeName => simp [type_enum_eq_iff]

theorem type_eq_message_iff {element : Element} :
    element.type = .message typeName ↔
      element = .message typeName ∧ typeName ∉ WellKnown.seededNames := by
  simp [type_eq_iff, WellKnown.messageTypes]

/-- The type of an element mentions a message type only by being it. -/
theorem mentions_type_iff {element : Element} :
    element.type.Mentions typeName ↔ element.type = .message typeName := by
  refine ⟨fun h => ?_, fun h => h ▸ rfl⟩
  cases element with
  | scalar kind => exact h.elim
  | enum other =>
    rcases type_enum_eq_iff.mp (Eq.refl (enum other).type) with ⟨_, ht⟩ | ⟨_, ht⟩ <;>
      simp [ht, SemanticType.Mentions] at h
  | message other =>
    rcases type_message_eq_iff.mp (Eq.refl (message other).type) with ht | ⟨_, ht⟩
    · exact absurd h (WellKnown.not_mentions_of_mem_messageTypes ht)
    · rw [ht] at h ⊢
      exact congrArg SemanticType.message h

theorem exists_type_eq_list_iff {element : Element} :
    (∃ item, element.type = .list item) ↔ element = .message "google.protobuf.ListValue" := by
  simp [type_eq_iff, WellKnown.messageTypes]

theorem exists_type_eq_map_iff {element : Element} :
    (∃ key value, element.type = .map key value) ↔
      element = .message "google.protobuf.Struct" := by
  simp [type_eq_iff, WellKnown.messageTypes]

theorem type_eq_dyn_iff {element : Element} :
    element.type = .dyn ↔ element = .message "google.protobuf.Value" := by
  simp [type_eq_iff, WellKnown.messageTypes]

theorem type_eq_null_iff {element : Element} :
    element.type = .null ↔ element = .enum "google.protobuf.NullValue" := by
  simp [type_eq_iff, WellKnown.messageTypes]

end Element

/-- What a field of a message type sees, by the name of the type. -/
structure SemanticType.SeenAs (typeName : String) (base : SemanticType) : Prop where
  wrapper : ∀ kind, base = .wrapper kind ↔ (typeName, .wrapper kind) ∈ WellKnown.messageTypes
  dyn : base = .dyn ↔ typeName = "google.protobuf.Value"
  any : base = .special .any ↔ typeName = "google.protobuf.Any"
  timestamp : base = .special .timestamp ↔ typeName = "google.protobuf.Timestamp"
  duration : base = .special .duration ↔ typeName = "google.protobuf.Duration"
  list : base = .list .dyn ↔ typeName = "google.protobuf.ListValue"
  map : base = .map (.primitive .string) .dyn ↔ typeName = "google.protobuf.Struct"
  message : base = .message typeName ↔ typeName ∉ WellKnown.seededNames

theorem Element.seenAs_type (typeName : String) :
    SemanticType.SeenAs typeName (message typeName).type := by
  constructor <;> simp [type_message_eq_iff, WellKnown.messageTypes]

namespace SemanticType

/-- The semantic type of a field that is a map or is repeated, or is neither, given that of its
element. The keys of a map are truth values, integers or strings. -/
inductive Makes : (isMap isRepeated : Bool) → SemanticType → SemanticType → Prop
  | single (base : SemanticType) : Makes false false base base
  | list (base : SemanticType) : Makes false true base (.list base)
  | map (base : SemanticType) {key : Primitive}
      (h : key ∈ [Primitive.bool, .int64, .uint64, .string]) :
      Makes true false base (.map (.primitive key) base)

namespace Makes
variable {isMap isRepeated : Bool} {base type : SemanticType} {typeName : String}

theorem not_both (h : Makes isMap isRepeated base type) :
    ¬ (isMap = true ∧ isRepeated = true) := by
  cases h <;> simp

theorem eq_single (h : Makes false false base type) : type = base := by
  cases h
  rfl

theorem eq_list (h : Makes isMap true base type) : type = .list base := by
  cases h
  rfl

theorem eq_map (h : Makes true isRepeated base type) :
    ∃ key ∈ [Primitive.bool, .int64, .uint64, .string], type = .map (.primitive key) base := by
  cases h with
  | map _ hkey => exact ⟨_, hkey, rfl⟩

theorem exists_eq_list_iff (h : Makes isMap isRepeated base type) :
    (∃ item, type = .list item) ↔
      isRepeated = true ∨ (isMap = false ∧ isRepeated = false) ∧ ∃ item, base = .list item := by
  cases h <;> simp

theorem exists_eq_map_iff (h : Makes isMap isRepeated base type) :
    (∃ key value, type = .map key value) ↔
      isMap = true ∨
        (isMap = false ∧ isRepeated = false) ∧ ∃ key value, base = .map key value := by
  cases h <;> simp

theorem isNullable_iff (h : Makes isMap isRepeated base type) :
    type.isNullable = true ↔ (isMap = false ∧ isRepeated = false) ∧
      ((∃ kind, base = .wrapper kind) ∨ base = .dyn ∨ base = .null) := by
  cases h with
  | single => cases base <;> simp [SemanticType.isNullable]
  | list | map => simp [SemanticType.isNullable]

theorem messageName?_eq_some_iff (h : Makes isMap isRepeated base type) :
    type.messageName? = some typeName ↔
      (isMap = false ∧ isRepeated = false) ∧ base = .message typeName := by
  cases h with
  | single => cases base <;> simp [SemanticType.messageName?]
  | list | map => simp [SemanticType.messageName?]

theorem mentions_iff (h : Makes isMap isRepeated base type) :
    type.Mentions typeName ↔ base.Mentions typeName := by
  cases h <;> simp [SemanticType.Mentions]

end Makes
end SemanticType

namespace FieldInfo

/-- The flags of a field, the kind of its elements, the name of their type and the field's own type
agree on what its elements are seen as. -/
structure Coherent (field : FieldInfo) (base : SemanticType) : Prop where
  flags : ¬ (field.isMap = true ∧ field.isRepeated = true)
  single : field.isMap = false → field.isRepeated = false → field.type = base
  list : field.isRepeated = true → field.type = .list base
  map : field.isMap = true →
    ∃ key ∈ [Primitive.bool, .int64, .uint64, .string], field.type = .map (.primitive key) base
  scalar : ∀ kind, field.elementKind = .scalar kind →
    field.typeName? = none ∧ base = .primitive kind.primitive
  enum : field.elementKind = .enum → ∃ typeName, field.typeName? = some typeName ∧
    (base = .null ↔ typeName = "google.protobuf.NullValue") ∧
    (base = .primitive .int64 ↔ typeName ≠ "google.protobuf.NullValue")
  message : field.elementKind = .message →
    ∃ typeName, field.typeName? = some typeName ∧ base.SeenAs typeName
  wrapper : field.isWrapper = true ↔ ∃ kind, base = .wrapper kind

def IsSingle (field : FieldInfo) : Prop := field.isMap = false ∧ field.isRepeated = false

instance (field : FieldInfo) : Decidable field.IsSingle := inferInstanceAs (Decidable (_ ∧ _))

/-- The stored parts of a field are made from an element. -/
structure Makes (field : FieldInfo) (element : Element) : Prop where
  stores : field.HasElement element
  type : SemanticType.Makes field.isMap field.isRepeated element.type field.type

variable {field : FieldInfo} {element : Element}

theorem HasElement.isWrapper_iff (h : field.HasElement element) :
    field.isWrapper = true ↔ ∃ kind, element.type = .wrapper kind := by
  rw [isWrapper, isMessage, h.kind, h.typeName?]
  cases element with
  | scalar kind => simp [Element.kind, Element.type]
  | enum typeName => simp [Element.kind, Element.type_enum_eq_iff]
  | message typeName =>
    simp [Element.kind, Element.typeName?, WellKnown.isWrapper, Option.isSome_iff_exists,
      WellKnown.wrappedPrimitive?_eq_some_iff, Element.type_message_eq_iff]

/-- Coherence rests on nothing but how the stored parts are made. -/
theorem Makes.coherent (h : field.Makes element) : field.Coherent element.type where
  flags := h.type.not_both
  single hmap hrepeated := by
    have htype := h.type
    rw [hmap, hrepeated] at htype
    exact htype.eq_single
  list hrepeated := by
    have htype := h.type
    rw [hrepeated] at htype
    exact htype.eq_list
  map hmap := by
    have htype := h.type
    rw [hmap] at htype
    exact htype.eq_map
  scalar kind hkind := by
    rw [h.stores.kind] at hkind
    rw [h.stores.typeName?]
    cases element <;> simp_all [Element.kind, Element.typeName?, Element.type]
  enum hkind := by
    rw [h.stores.kind] at hkind
    cases element with
    | scalar _ | message _ => cases hkind
    | enum typeName =>
      refine ⟨typeName, h.stores.typeName?, ?_, ?_⟩ <;> simp [Element.type_enum_eq_iff]
  message hkind := by
    rw [h.stores.kind] at hkind
    cases element with
    | scalar _ | enum _ => cases hkind
    | message typeName => exact ⟨typeName, h.stores.typeName?, Element.seenAs_type typeName⟩
  wrapper := h.stores.isWrapper_iff

end FieldInfo

theorem ScalarKind.primitive_mem_of_mapKey {kind : ScalarKind}
    (h : kind ∉ [ScalarKind.double, .float, .bytes]) :
    kind.primitive ∈ [Primitive.bool, .int64, .uint64, .string] := by
  revert h
  cases kind <;> decide

namespace Schema
variable {S : Schema} {field : S.Field}

/-- What is read of a field with a proper entry is made from its element. -/
theorem Reads.makes {kind : ElementKind} {typeName? : Option String} {isMap isRepeated : Bool}
    {type : SemanticType} (h : S.Reads field kind typeName? isMap isRepeated type)
    (hentry : ∀ entry, S.TypedByEntry field entry → S.ProperEntry entry) :
    ∃ element : Element, kind = element.kind ∧ typeName? = element.typeName? ∧
      SemanticType.Makes isMap isRepeated element.type type := by
  cases h with
  | single _ _ hr =>
    obtain ⟨hkind, hname, rfl⟩ := hr.eq
    exact ⟨_, hkind, hname, .single _⟩
  | list _ _ hr =>
    obtain ⟨hkind, hname, rfl⟩ := hr.eq
    exact ⟨_, hkind, hname, .list _⟩
  | @map entry key value _ _ _ _ keyType _ ht hf hk hv =>
    obtain ⟨hkind, hname, rfl⟩ := hv.eq
    obtain ⟨_, _, scalar, hf', _, _, _, _, hscalar, hkey⟩ := hentry entry ht
    obtain ⟨rfl, rfl⟩ := entry_fields_unique hf hf'
    rw [hk.eq.2.2, hscalar]
    exact ⟨_, hkind, hname, .map _ (ScalarKind.primitive_mem_of_mapKey hkey)⟩

theorem Describes.makes {strict : Bool} {m : S.Message} {info : MessageInfo} {field : FieldInfo}
    (h : S.Describes m info) (hwf : S.WellFormedMessage strict m) (hf : field ∈ info.fields) :
    ∃ element, field.Makes element := by
  obtain ⟨position, declared, hdeclared, hdescribes⟩ := h.exists_field hf
  obtain ⟨element, hkind, hname, htype⟩ :=
    hdescribes.reads.makes fun entry he => (hwf.maps declared hdeclared entry he).2
  exact ⟨element, ⟨hkind, hname⟩, htype⟩

end Schema
end MessageRegistry
