import MessageRegistry.Info
import MessageRegistry.Proofs.Info.FieldIndex
import MessageRegistry.Proofs.Schema.Form

/-!
Reference descriptions: what has to be said of a message or enum type, told by the declarations and
a table of semantic types. Main statements: a declaration has at most one description, and reading
the fields of a well-formed declaration gives it.
-/
namespace MessageRegistry

namespace WellKnown

/-- The message types that are not seen as messages, and what is seen instead. -/
def messageTypes : List (String × SemanticType) :=
  [("google.protobuf.Any", .special .any),
    ("google.protobuf.Timestamp", .special .timestamp),
    ("google.protobuf.Duration", .special .duration),
    ("google.protobuf.Value", .dyn),
    ("google.protobuf.ListValue", .list .dyn),
    ("google.protobuf.Struct", .map (.primitive .string) .dyn),
    ("google.protobuf.BoolValue", .wrapper .bool),
    ("google.protobuf.BytesValue", .wrapper .bytes),
    ("google.protobuf.DoubleValue", .wrapper .double),
    ("google.protobuf.FloatValue", .wrapper .double),
    ("google.protobuf.Int32Value", .wrapper .int64),
    ("google.protobuf.Int64Value", .wrapper .int64),
    ("google.protobuf.StringValue", .wrapper .string),
    ("google.protobuf.UInt32Value", .wrapper .uint64),
    ("google.protobuf.UInt64Value", .wrapper .uint64)]

end WellKnown

namespace Schema

/-- The resolution table: the kind of an element, the type it refers to, and what it is seen as. -/
inductive Resolves (S : Schema) : S.FieldType → ElementKind → Option String → SemanticType → Prop
  | bool : Resolves S (.scalar .bool) (.scalar .bool) none (.primitive .bool)
  | int {kind : ScalarKind}
      (h : kind ∈ [ScalarKind.int32, .int64, .sint32, .sint64, .sfixed32, .sfixed64]) :
      Resolves S (.scalar kind) (.scalar kind) none (.primitive .int64)
  | uint {kind : ScalarKind} (h : kind ∈ [ScalarKind.uint32, .uint64, .fixed32, .fixed64]) :
      Resolves S (.scalar kind) (.scalar kind) none (.primitive .uint64)
  | double {kind : ScalarKind} (h : kind ∈ [ScalarKind.float, .double]) :
      Resolves S (.scalar kind) (.scalar kind) none (.primitive .double)
  | string : Resolves S (.scalar .string) (.scalar .string) none (.primitive .string)
  | bytes : Resolves S (.scalar .bytes) (.scalar .bytes) none (.primitive .bytes)
  | wellKnown {t : S.Message} {type : SemanticType}
      (h : (S.messageName t, type) ∈ WellKnown.messageTypes) :
      Resolves S (.message t) .message (some (S.messageName t)) type
  | message {t : S.Message} (h : ∀ type, (S.messageName t, type) ∉ WellKnown.messageTypes) :
      Resolves S (.message t) .message (some (S.messageName t)) (.message (S.messageName t))
  | nullValue {e : S.Enum} (h : S.enumName e = "google.protobuf.NullValue") :
      Resolves S (.enum e) .enum (some (S.enumName e)) .null
  | enum {e : S.Enum} (h : S.enumName e ≠ "google.protobuf.NullValue") :
      Resolves S (.enum e) .enum (some (S.enumName e)) (.primitive .int64)

/-- What a field is, by its type and label: the kind and the type name of its element, whether it is
a map, whether it is repeated, and its semantic type. A repeated field is a list, and one typed by a
map entry folds to a map from the entry's key to its value. -/
inductive Reads (S : Schema) (field : S.Field) :
    ElementKind → Option String → Bool → Bool → SemanticType → Prop
  | single {kind : ElementKind} {typeName? : Option String} {type : SemanticType}
      (h : ∀ entry, ¬ S.TypedByEntry field entry) (label : field.label ≠ .repeated)
      (resolves : S.Resolves field.type kind typeName? type) :
      Reads S field kind typeName? false false type
  | list {kind : ElementKind} {typeName? : Option String} {type : SemanticType}
      (h : ∀ entry, ¬ S.TypedByEntry field entry) (label : field.label = .repeated)
      (resolves : S.Resolves field.type kind typeName? type) :
      Reads S field kind typeName? false true (.list type)
  | map {entry : S.Message} {key value : S.Field} {keyKind kind : ElementKind}
      {keyName? typeName? : Option String} {keyType type : SemanticType}
      (h : S.TypedByEntry field entry) (fields : (S.message entry).fields = [key, value])
      (resolvesKey : S.Resolves key.type keyKind keyName? keyType)
      (resolvesValue : S.Resolves value.type kind typeName? type) :
      Reads S field kind typeName? true false (.map keyType type)

/-- What has to be said of the field declared at a position. -/
structure DescribesField (S : Schema) (position : Nat) (field : S.Field) (info : FieldInfo) :
    Prop where
  name : info.name = field.name
  exportedName : info.exportedName = Name.exported field.name
  getterName : info.getterName = "Get" ++ Name.exported field.name
  index : info.index = position
  number : info.number = field.number
  oneof : info.oneof = field.oneof
  reads : S.Reads field info.elementKind info.typeName? info.isMap info.isRepeated info.type

/-- What has to be said of a message type: one description for each declared field, in the order
of declaration, and the positions of the fields by their keys. -/
structure Describes (S : Schema) (m : S.Message) (info : MessageInfo) : Prop where
  name : info.name = S.messageName m
  length : info.fields.length = (S.message m).fields.length
  field : ∀ position field, (S.message m).fields[position]? = some field →
    ∃ fieldInfo, info.fields[position]? = some fieldInfo ∧
      S.DescribesField position field fieldInfo
  index : info.index = .ofFields info.fields

/-- What has to be said of an enum: its values in the order of declaration, under full names. -/
structure DescribesEnum (S : Schema) (e : S.Enum) (info : EnumInfo) : Prop where
  name : info.name = S.enumName e
  values : info.values = (S.enum e).values.map fun value =>
    ⟨S.enumName e ++ "." ++ value.name, S.enumName e, value.number⟩

end Schema

namespace WellKnown

theorem ofName?_eq_some_iff {typeName : String} {message : WellKnownMessage} :
    WellKnownMessage.ofName? typeName = some message ↔ message.name = typeName := by
  constructor
  · intro h
    simpa using List.find?_some h
  · intro h
    cases hf : WellKnownMessage.ofName? typeName with
    | none =>
      have hnone := List.find?_eq_none.mp hf message message.mem_all
      simp [h] at hnone
    | some other =>
      have ho : other.name = typeName := by simpa using List.find?_some hf
      rw [WellKnownMessage.name_injective other message (ho.trans h.symm)]

/-- The entry of a map is the one type that is no special, and it is declared inside another. -/
theorem isInPackage_of_semanticType? {message : WellKnownMessage} {type : SemanticType}
    (h : message.semanticType? = some type) : isInPackage message.name = true := by
  cases message with
  | structFieldsEntry => cases h
  | _ => decide

theorem messageType?_eq_bind (typeName : String) :
    messageType? typeName = (WellKnownMessage.ofName? typeName).bind (·.semanticType?) := by
  unfold messageType?
  split
  · rfl
  · rename_i houtside
    symm
    apply Option.eq_none_iff_forall_ne_some.mpr
    intro type h
    obtain ⟨message, hm, htype⟩ := Option.bind_eq_some_iff.mp h
    obtain rfl := ofName?_eq_some_iff.mp hm
    exact houtside (isInPackage_of_semanticType? htype)

theorem mem_messageTypes_iff {typeName : String} {type : SemanticType} :
    (typeName, type) ∈ messageTypes ↔ messageType? typeName = some type := by
  simp only [messageType?_eq_bind, Option.bind_eq_some_iff, ofName?_eq_some_iff]
  constructor
  · intro h
    simp only [messageTypes, List.mem_cons, Prod.mk.injEq, List.not_mem_nil, or_false] at h
    rcases h with h | h | h | h | h | h | h | h | h | h | h | h | h | h | h <;>
      obtain ⟨rfl, rfl⟩ := h
    · exact ⟨.any, rfl, rfl⟩
    · exact ⟨.timestamp, rfl, rfl⟩
    · exact ⟨.duration, rfl, rfl⟩
    · exact ⟨.value, rfl, rfl⟩
    · exact ⟨.listValue, rfl, rfl⟩
    · exact ⟨.struct, rfl, rfl⟩
    · exact ⟨.boolValue, rfl, rfl⟩
    · exact ⟨.bytesValue, rfl, rfl⟩
    · exact ⟨.doubleValue, rfl, rfl⟩
    · exact ⟨.floatValue, rfl, rfl⟩
    · exact ⟨.int32Value, rfl, rfl⟩
    · exact ⟨.int64Value, rfl, rfl⟩
    · exact ⟨.stringValue, rfl, rfl⟩
    · exact ⟨.uint32Value, rfl, rfl⟩
    · exact ⟨.uint64Value, rfl, rfl⟩
  · rintro ⟨message, rfl, h⟩
    cases message <;>
      simp only [WellKnownMessage.semanticType?, WellKnownMessage.wrappedKind?, reduceCtorEq,
        Option.some.injEq] at h <;>
      subst h <;> simp [messageTypes, WellKnownMessage.name, ScalarKind.primitive]

end WellKnown

namespace Schema
variable {S : Schema} {strict : Bool} {field : S.Field} {form : Form S.Message S.Enum}

theorem resolves_scalar (kind : ScalarKind) :
    S.Resolves (.scalar kind) (.scalar kind) none (.primitive kind.primitive) := by
  cases kind with
  | bool => exact .bool
  | string => exact .string
  | bytes => exact .bytes
  | float | double => exact .double (by decide)
  | uint32 | uint64 | fixed32 | fixed64 => exact .uint (by decide)
  | int32 | int64 | sint32 | sint64 | sfixed32 | sfixed64 => exact .int (by decide)

theorem resolves_elementOf (type : S.FieldType) :
    S.Resolves type (S.elementOf type).kind (S.elementOf type).typeName?
      (S.elementOf type).type := by
  cases type with
  | scalar kind => exact resolves_scalar kind
  | message t =>
    cases hs : WellKnown.messageType? (S.messageName t) with
    | none =>
      have hn : ∀ type, (S.messageName t, type) ∉ WellKnown.messageTypes := by
        intro type hmem
        simp [WellKnown.mem_messageTypes_iff.mp hmem] at hs
      simpa [elementOf, Element.kind, Element.typeName?, Element.type, hs] using Resolves.message hn
    | some type =>
      simpa [elementOf, Element.kind, Element.typeName?, Element.type, hs] using
        Resolves.wellKnown (WellKnown.mem_messageTypes_iff.mpr hs)
  | enum e =>
    by_cases hn : S.enumName e = "google.protobuf.NullValue"
    · simpa [elementOf, Element.kind, Element.typeName?, Element.type, WellKnown.enumType?,
        WellKnown.nullValueName, hn] using Resolves.nullValue hn
    · simpa [elementOf, Element.kind, Element.typeName?, Element.type, WellKnown.enumType?,
        WellKnown.nullValueName, hn] using Resolves.enum hn

/-- The table has one entry only for a type. -/
theorem Resolves.eq {type : S.FieldType} {kind : ElementKind} {typeName? : Option String}
    {semantic : SemanticType} (h : S.Resolves type kind typeName? semantic) :
    kind = (S.elementOf type).kind ∧ typeName? = (S.elementOf type).typeName? ∧
      semantic = (S.elementOf type).type := by
  cases h with
  | bool | string | bytes => exact ⟨rfl, rfl, rfl⟩
  | int h =>
    simp only [List.mem_cons, List.not_mem_nil, or_false] at h
    rcases h with rfl | rfl | rfl | rfl | rfl | rfl <;> exact ⟨rfl, rfl, rfl⟩
  | uint h =>
    simp only [List.mem_cons, List.not_mem_nil, or_false] at h
    rcases h with rfl | rfl | rfl | rfl <;> exact ⟨rfl, rfl, rfl⟩
  | double h =>
    simp only [List.mem_cons, List.not_mem_nil, or_false] at h
    rcases h with rfl | rfl <;> exact ⟨rfl, rfl, rfl⟩
  | wellKnown h =>
    have hs := WellKnown.mem_messageTypes_iff.mp h
    exact ⟨rfl, rfl, by simp [elementOf, Element.type, hs]⟩
  | @message t h =>
    have hn : WellKnown.messageType? (S.messageName t) = none := by
      apply Option.eq_none_iff_forall_ne_some.mpr
      intro other ho
      exact h other (WellKnown.mem_messageTypes_iff.mpr ho)
    exact ⟨rfl, rfl, by simp [elementOf, Element.type, hn]⟩
  | nullValue h | enum h =>
    refine ⟨rfl, rfl, ?_⟩
    simp [elementOf, Element.type, WellKnown.enumType?, WellKnown.nullValueName, h]

theorem Resolves.unique {type : S.FieldType} {aKind bKind : ElementKind}
    {aName? bName? : Option String} {aType bType : SemanticType}
    (ha : S.Resolves type aKind aName? aType) (hb : S.Resolves type bKind bName? bType) :
    aKind = bKind ∧ aName? = bName? ∧ aType = bType := by
  obtain ⟨rfl, rfl, rfl⟩ := ha.eq
  obtain ⟨rfl, rfl, rfl⟩ := hb.eq
  exact ⟨rfl, rfl, rfl⟩

theorem Reads.unique {aKind bKind : ElementKind} {aName? bName? : Option String}
    {aMap bMap aRepeated bRepeated : Bool} {aType bType : SemanticType}
    (ha : S.Reads field aKind aName? aMap aRepeated aType)
    (hb : S.Reads field bKind bName? bMap bRepeated bType) :
    aKind = bKind ∧ aName? = bName? ∧ aMap = bMap ∧ aRepeated = bRepeated ∧ aType = bType := by
  cases ha with
  | single h hl hr =>
    cases hb with
    | single _ _ hr' =>
      obtain ⟨rfl, rfl, rfl⟩ := hr.unique hr'
      exact ⟨rfl, rfl, rfl, rfl, rfl⟩
    | list _ hl' _ => exact absurd hl' hl
    | map h' _ _ _ => exact absurd h' (h _)
  | list h hl hr =>
    cases hb with
    | single _ hl' _ => exact absurd hl hl'
    | list _ _ hr' =>
      obtain ⟨rfl, rfl, rfl⟩ := hr.unique hr'
      exact ⟨rfl, rfl, rfl, rfl, rfl⟩
    | map h' _ _ _ => exact absurd h' (h _)
  | map h hf hk hv =>
    cases hb with
    | single h' _ _ => exact absurd h (h' _)
    | list h' _ _ => exact absurd h (h' _)
    | map h' hf' hk' hv' =>
      obtain rfl := h.unique h'
      obtain ⟨rfl, rfl⟩ := entry_fields_unique hf hf'
      obtain ⟨_, _, rfl⟩ := hk.unique hk'
      obtain ⟨rfl, rfl, rfl⟩ := hv.unique hv'
      exact ⟨rfl, rfl, rfl, rfl, rfl⟩

/-- What is read of a field tells the element that the declarations give it. -/
theorem Reads.element {kind : ElementKind} {typeName? : Option String} {isMap isRepeated : Bool}
    {semantic : SemanticType} {type : S.FieldType}
    (h : S.Reads field kind typeName? isMap isRepeated semantic) (he : S.HasElement field type) :
    kind = (S.elementOf type).kind ∧ typeName? = (S.elementOf type).typeName? := by
  cases h with
  | single hplain _ hr | list hplain _ hr =>
    cases he with
    | plain _ => exact ⟨hr.eq.1, hr.eq.2.1⟩
    | mapValue ht _ => exact absurd ht (hplain _)
  | map ht hf _ hv =>
    cases he with
    | plain hplain => exact absurd ht (hplain _)
    | mapValue ht' hf' =>
      obtain rfl := ht.unique ht'
      obtain ⟨rfl, rfl⟩ := entry_fields_unique hf hf'
      exact ⟨hv.eq.1, hv.eq.2.1⟩

theorem DescribesField.hasElement {position : Nat} {info : FieldInfo} {type : S.FieldType}
    (h : S.DescribesField position field info) (he : S.HasElement field type) :
    info.HasElement (S.elementOf type) :=
  ⟨(h.reads.element he).1, (h.reads.element he).2⟩

theorem DescribesField.unique {position : Nat} {a b : FieldInfo}
    (ha : S.DescribesField position field a) (hb : S.DescribesField position field b) : a = b := by
  obtain ⟨hkind, htypeName, hmap, hrepeated, htype⟩ := ha.reads.unique hb.reads
  have hname := ha.name.trans hb.name.symm
  have hexported := ha.exportedName.trans hb.exportedName.symm
  have hgetter := ha.getterName.trans hb.getterName.symm
  have hindex := ha.index.trans hb.index.symm
  have hnumber := ha.number.trans hb.number.symm
  have honeof := ha.oneof.trans hb.oneof.symm
  cases a
  cases b
  simp_all

theorem Describes.unique {m : S.Message} {a b : MessageInfo} (ha : S.Describes m a)
    (hb : S.Describes m b) : a = b := by
  have hfields : a.fields = b.fields := by
    apply List.ext_getElem?
    intro position
    cases hf : (S.message m).fields[position]? with
    | none =>
      have hlength := List.getElem?_eq_none_iff.mp hf
      rw [List.getElem?_eq_none (by rw [ha.length]; exact hlength),
        List.getElem?_eq_none (by rw [hb.length]; exact hlength)]
    | some field =>
      obtain ⟨x, hx, hdx⟩ := ha.field position field hf
      obtain ⟨y, hy, hdy⟩ := hb.field position field hf
      rw [hx, hy, hdx.unique hdy]
  have hname := ha.name.trans hb.name.symm
  have hindex : a.index = b.index := by rw [ha.index, hb.index, hfields]
  cases a
  cases b
  simp_all

theorem Describes.declared {m : S.Message} {info : MessageInfo} (h : S.Describes m info)
    {position : Nat} {fieldInfo : FieldInfo} (hp : info.fields[position]? = some fieldInfo) :
    ∃ field ∈ (S.message m).fields, S.DescribesField position field fieldInfo := by
  have hlt : position < (S.message m).fields.length := by
    rw [← h.length]
    exact (List.getElem?_eq_some_iff.mp hp).1
  obtain ⟨other, ho, hd⟩ := h.field position _ (List.getElem?_eq_getElem hlt)
  obtain rfl := Option.some.inj (hp.symm.trans ho)
  exact ⟨_, List.getElem_mem hlt, hd⟩

theorem Describes.exists_field {m : S.Message} {info : MessageInfo} (h : S.Describes m info)
    {fieldInfo : FieldInfo} (hf : fieldInfo ∈ info.fields) :
    ∃ position, ∃ field ∈ (S.message m).fields, S.DescribesField position field fieldInfo := by
  obtain ⟨position, hp⟩ := List.mem_iff_getElem?.mp hf
  exact ⟨position, h.declared hp⟩

/-- Keys are read off the declared fields. -/
theorem Describes.map_fields {m : S.Message} {info : MessageInfo} (h : S.Describes m info)
    {κ : Type} {key : FieldInfo → κ} {declared : S.Field → κ}
    (hkey : ∀ position field info, S.DescribesField position field info →
      key info = declared field) :
    info.fields.map key = (S.message m).fields.map declared := by
  apply List.ext_getElem?
  intro position
  rw [List.getElem?_map, List.getElem?_map]
  cases hf : (S.message m).fields[position]? with
  | none =>
    have hlength := List.getElem?_eq_none_iff.mp hf
    rw [List.getElem?_eq_none (by rw [h.length]; exact hlength)]
    rfl
  | some field =>
    obtain ⟨fieldInfo, hi, hd⟩ := h.field position field hf
    rw [hi, Option.map_some, Option.map_some, hkey position field fieldInfo hd]

theorem Describes.exists_element {m : S.Message} {info : MessageInfo} (h : S.Describes m info)
    (hf : field ∈ (S.message m).fields) {type : S.FieldType} (he : S.HasElement field type) :
    ∃ fieldInfo ∈ info.fields, fieldInfo.HasElement (S.elementOf type) := by
  obtain ⟨position, hp⟩ := List.mem_iff_getElem?.mp hf
  obtain ⟨fieldInfo, hi, hd⟩ := h.field position field hp
  exact ⟨fieldInfo, List.mem_of_getElem? hi, hd.hasElement he⟩

theorem reads_of_hasForm (h : S.HasForm field form) :
    S.Reads field (S.elementOf form.element).kind (S.elementOf form.element).typeName?
      form.isMap form.isRepeated (form.type (S.elementOf form.element).type) := by
  cases h with
  | plain h =>
    have hr := resolves_elementOf field.type
    unfold FieldDecl.plainForm
    split
    · rename_i hl
      exact .list h (by simpa [FieldDecl.isRepeated] using hl) hr
    · rename_i hl
      exact .single h (by simpa [FieldDecl.isRepeated] using hl) hr
  | @map entry key value kind h _ hf _ _ _ _ hk _ =>
    have hkey : S.Resolves key.type (.scalar kind) none (.primitive kind.primitive) := by
      rw [hk]
      exact resolves_scalar kind
    exact .map h hf hkey (resolves_elementOf value.type)

theorem describesField_describeField (h : S.HasForm field form) (position : Nat) :
    S.DescribesField position field (S.describeField position field form) :=
  ⟨rfl, rfl, rfl, rfl, rfl, rfl, reads_of_hasForm h⟩

/-- Fields, from a position on, and their descriptions as they are read one after the other. -/
inductive ReadFields (S : Schema) (strict : Bool) : Nat → List S.Field → List FieldInfo → Prop
  | nil (position : Nat) : ReadFields S strict position [] []
  | cons {position : Nat} {field : S.Field} {fields : List S.Field}
      {form : Form S.Message S.Enum} {infos : List FieldInfo}
      (identifier : strict = true → Name.isIdentifier field.name = true)
      (reading : S.HasForm field form)
      (rest : ReadFields S strict (position + 1) fields infos) :
      ReadFields S strict position (field :: fields) (S.describeField position field form :: infos)

namespace ReadFields
variable {position : Nat} {fields : List S.Field} {infos : List FieldInfo}

theorem length (h : S.ReadFields strict position fields infos) : infos.length = fields.length := by
  induction h with
  | nil => rfl
  | cons _ _ _ ih => simp [ih]

theorem names (h : S.ReadFields strict position fields infos) :
    infos.map (·.name) = fields.map (·.name) := by
  induction h with
  | nil => rfl
  | cons _ _ _ ih => simp [ih, describeField]

theorem exportedNames (h : S.ReadFields strict position fields infos) :
    infos.map (·.exportedName) = fields.map fun field => Name.exported field.name := by
  induction h with
  | nil => rfl
  | cons _ _ _ ih => simp [ih, describeField]

theorem numbers (h : S.ReadFields strict position fields infos) :
    infos.map (·.number) = fields.map (·.number) := by
  induction h with
  | nil => rfl
  | cons _ _ _ ih => simp [ih, describeField]

theorem identifier (h : S.ReadFields strict position fields infos) :
    strict = true → ∀ field ∈ fields, Name.isIdentifier field.name = true := by
  intro hs
  induction h with
  | nil => simp
  | cons hident _ _ ih => exact List.forall_mem_cons.mpr ⟨hident hs, ih⟩

theorem hasForm (h : S.ReadFields strict position fields infos) :
    ∀ field ∈ fields, ∃ form, S.HasForm field form := by
  induction h with
  | nil => simp
  | cons _ hform _ ih => exact List.forall_mem_cons.mpr ⟨⟨_, hform⟩, ih⟩

theorem describes (h : S.ReadFields strict position fields infos) (i : Nat) :
    ∀ field, fields[i]? = some field →
      ∃ info, infos[i]? = some info ∧ S.DescribesField (position + i) field info := by
  induction h generalizing i with
  | nil => simp
  | @cons position field fields form infos _ hform _ ih =>
    intro other ho
    cases i with
    | zero =>
      simp only [List.getElem?_cons_zero, Option.some.injEq] at ho
      subst ho
      exact ⟨_, rfl, describesField_describeField hform position⟩
    | succ i =>
      rw [List.getElem?_cons_succ] at ho ⊢
      rw [show position + (i + 1) = position + 1 + i by omega]
      exact ih i other ho

end ReadFields

section Message
variable {m : S.Message} {infos : List FieldInfo} {info : MessageInfo}

theorem describes_of_readFields (h : S.ReadFields strict 0 (S.message m).fields infos)
    (hi : MessageInfo.ofFields? (S.messageName m) infos = .ok info) : S.Describes m info := by
  obtain ⟨_, _, _, rfl⟩ := MessageInfo.ofFields?_eq_ok_iff.mp hi
  constructor
  · rfl
  · exact h.length
  · intro position field hf
    simpa using h.describes position field hf
  · rfl

theorem wellFormedMessage_of_readFields (hn : S.messageName m ≠ "")
    (he : (S.message m).isMapEntry = false)
    (h : S.ReadFields strict 0 (S.message m).fields infos)
    (hi : MessageInfo.ofFields? (S.messageName m) infos = .ok info) :
    S.WellFormedMessage strict m := by
  obtain ⟨hnames, hexported, hnumbers, _⟩ := MessageInfo.ofFields?_eq_ok_iff.mp hi
  constructor
  · exact hn
  · exact he
  · exact h.identifier
  · rwa [← h.names]
  · rwa [← h.exportedNames]
  · rwa [← h.numbers]
  · intro field hf
    exact exists_hasForm_iff.mp (h.hasForm field hf)

theorem WellFormedMessage.hasForm (h : S.WellFormedMessage strict m) :
    ∀ field ∈ (S.message m).fields, ∃ form, S.HasForm field form :=
  fun field hf => exists_hasForm_iff.mpr (h.maps field hf)

theorem WellFormedMessage.ofFields? (hwf : S.WellFormedMessage strict m)
    (h : S.ReadFields strict 0 (S.message m).fields infos) :
    ∃ info, MessageInfo.ofFields? (S.messageName m) infos = .ok info := by
  refine ⟨_, MessageInfo.ofFields?_eq_ok_iff.mpr ⟨?_, ?_, ?_, rfl⟩⟩
  · rw [h.names]
    exact hwf.names
  · rw [h.exportedNames]
    exact hwf.exportedNames
  · rw [h.numbers]
    exact hwf.numbers

end Message

section Enum
variable {e : S.Enum} {info : EnumInfo}

theorem describesEnum_describe (e : S.Enum) : S.DescribesEnum e (S.enum e).describe := by
  constructor
  · rfl
  · rfl

theorem DescribesEnum.unique {a b : EnumInfo} (ha : S.DescribesEnum e a)
    (hb : S.DescribesEnum e b) : a = b := by
  have hname := ha.name.trans hb.name.symm
  have hvalues := ha.values.trans hb.values.symm
  cases a
  cases b
  simp_all

theorem describe?_eq_ok_iff :
    (S.enum e).describe? strict = .ok info ↔
      S.WellFormedEnum strict e ∧ info = (S.enum e).describe := by
  have hwf : S.WellFormedEnum strict e ↔
      Name.normalize (S.enum e).name ≠ "" ∧ (S.enum e).hasProperValues strict = true := by
    constructor
    · intro h
      refine ⟨h.named, ?_⟩
      have hident := h.identifiers
      cases strict <;> simp_all [EnumDecl.hasProperValues, h.names]
    · rintro ⟨hn, hp⟩
      simp only [EnumDecl.hasProperValues, Bool.and_eq_true, Bool.or_eq_true, Bool.not_eq_true',
        List.all_eq_true, decide_eq_true_eq] at hp
      refine ⟨hn, hp.2, fun hs => hp.1.resolve_left ?_⟩
      simp [hs]
  rw [hwf, EnumDecl.describe?]
  split
  · rename_i h
    simp [h, eq_comm]
  · rename_i h
    simp [h]

end Enum

end Schema
end MessageRegistry
