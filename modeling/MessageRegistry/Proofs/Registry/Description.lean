import MessageRegistry.Proofs.Registry.Acceptance
import MessageRegistry.Proofs.Registry.Closure

/-!
What is published. Main statements: whatever stands under a name describes a declared type of that
name, even where names clash; and whatever a published field's type, its element and its flags are,
they agree, and well-known types never occur as messages.
-/
namespace MessageRegistry.Registry
variable {S : Schema} {registry : Registry}

/-- Neither the order of operations nor the types met on the way show in a description: it is the
only one that the declaration of some message type has, and likewise for enums. -/
theorem published_describes (hr : Reachable S registry) :
    (∀ name shared, registry.catalog.message? name = some shared →
      ∃ m, S.messageName m = name ∧ (S.message m).isMapEntry = false ∧
        S.Describes m shared.value ∧ ∀ info, S.Describes m info → info = shared.value) ∧
    ∀ name shared, registry.catalog.enum? name = some shared →
      ∃ e, S.enumName e = name ∧ S.DescribesEnum e shared.value ∧
        ∀ info, S.DescribesEnum e info → info = shared.value := by
  have hs := hr.sound
  constructor
  · intro name shared hm
    obtain ⟨m, hn, hd, hwf⟩ := hs.message name shared hm
    exact ⟨m, hn, hwf.not_entry, hd, fun info hi => hi.unique hd⟩
  · intro name shared he
    obtain ⟨e, hn, hd, _⟩ := hs.enum name shared he
    exact ⟨e, hn, hd, fun info hi => hi.unique hd⟩

theorem published_describes_node :
    ∃ shared, ((create 0 {}).registry.register .tree Schema.tree.node).registry.catalog.message?
        "t.Node" = some shared ∧
      ∃ m, Schema.tree.messageName m = "t.Node" ∧ (Schema.tree.message m).isMapEntry = false ∧
        Schema.tree.Describes m shared.value ∧
        ∀ info, Schema.tree.Describes m info → info = shared.value := by
  have hstrict : (create 0 {}).registry.config.strictNames = true := by rw [create_config]
  obtain ⟨shared, hok⟩ := registered_register.isOk (hstrict ▸ Schema.tree.wellFormedFrom_node)
  have hm := registered_register.message? hok
  have hn : Schema.tree.messageName Schema.tree.node = "t.Node" := rfl
  rw [hn] at hm
  have hr := (Reachable.create 0 {}).register Schema.tree.node
  exact ⟨shared, hm, (published_describes hr).1 "t.Node" shared hm⟩

/-- A user's declaration under a well-known name is seen as the well-known type, and one under a
name with a further dot is not. -/
theorem published_field_types_coherent (hr : Reachable S registry) {name : String}
    {shared : Shared MessageInfo} (hm : registry.catalog.message? name = some shared)
    {field : FieldInfo} (hf : field ∈ shared.value.fields) :
    (∃ base, field.Coherent base) ∧
    (∀ typeName, field.type.Mentions typeName → typeName ∉ WellKnown.seededNames) ∧
    ((∃ item, field.type = .list item) ↔ field.isRepeated = true ∨
      field.IsSingle ∧ field.HasElement (.message "google.protobuf.ListValue")) ∧
    ((∃ key value, field.type = .map key value) ↔ field.isMap = true ∨
      field.IsSingle ∧ field.HasElement (.message "google.protobuf.Struct")) ∧
    (field.type.isNullable = true ↔ field.IsSingle ∧
      (field.isWrapper = true ∨ field.HasElement (.message "google.protobuf.Value") ∨
        field.HasElement (.enum "google.protobuf.NullValue"))) ∧
    ∀ typeName, field.type.messageName? = some typeName ↔ field.IsSingle ∧
      field.HasElement (.message typeName) ∧ typeName ∉ WellKnown.seededNames := by
  obtain ⟨m, _, hd, hwf⟩ := hr.sound.message name shared hm
  obtain ⟨element, h⟩ := hd.makes hwf hf
  simp only [h.stores.hasElement_iff, FieldInfo.IsSingle]
  refine ⟨⟨_, h.coherent⟩, fun typeName ht => ?_, ?_, ?_, ?_, fun typeName => ?_⟩
  · rw [h.type.mentions_iff, Element.mentions_type_iff, Element.type_eq_message_iff] at ht
    exact ht.2
  · rw [h.type.exists_eq_list_iff, Element.exists_type_eq_list_iff]
  · rw [h.type.exists_eq_map_iff, Element.exists_type_eq_map_iff]
  · rw [h.type.isNullable_iff, h.stores.isWrapper_iff, Element.type_eq_dyn_iff,
      Element.type_eq_null_iff]
  · rw [h.type.messageName?_eq_some_iff, Element.type_eq_message_iff]

theorem published_field_types_coherent_clash :
    ∃ shared field, ((create 0 {}).registry.register .clash
        Schema.clash.twin).registry.catalog.message? "c.Peer" = some shared ∧
      field ∈ shared.value.fields ∧ field.HasElement (.message "google.protobuf.Any") ∧
      field.type = .special .any := by
  have hpeer : (((create 0 {}).registry.register .clash
      Schema.clash.twin).registry.catalog.message? "c.Peer").any (fun shared =>
        shared.value.fields.any fun field => field.IsSingle ∧
          field.isMessage = true ∧ field.typeName? = some "google.protobuf.Any") = true := by
    decide +kernel
  obtain ⟨shared, hm, hfields⟩ := (Option.any_eq_true _ _).mp hpeer
  obtain ⟨field, hf, hpayload⟩ := List.any_eq_true.mp hfields
  obtain ⟨⟨hmap, hrepeated⟩, hmessage, hname⟩ := of_decide_eq_true hpayload
  have hr := (Reachable.create 0 {}).register Schema.clash.twin
  obtain ⟨base, hcoherent⟩ := (published_field_types_coherent hr hm hf).1
  obtain ⟨typeName, htypeName, hseen⟩ := hcoherent.message (beq_iff_eq.mp hmessage)
  obtain rfl := Option.some.inj (htypeName.symm.trans hname)
  exact ⟨shared, field, hm, hf, FieldInfo.hasElement_message_iff.mpr ⟨hmessage, hname⟩,
    (hcoherent.single hmap hrepeated).trans (hseen.any.mpr rfl)⟩

end MessageRegistry.Registry
