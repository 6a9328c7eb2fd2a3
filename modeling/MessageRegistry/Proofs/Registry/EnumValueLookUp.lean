import MessageRegistry.Proofs.Registry.LookUp
import MessageRegistry.Proofs.Registry.Rejection

/-!
Looking up enum values by their full names. Main statement: where names are strict, the values of
the published enums are found, each by its own name and with its own number, and nothing else is.
-/
namespace MessageRegistry

def Schema.DeclaresValue (S : Schema) (e : S.Enum) (fullName : String) (number : Int32) : Prop :=
  ∃ decl ∈ (S.enum e).values, Name.qualify (S.enumName e) decl.name = fullName ∧
    decl.number = number

namespace Catalog

structure HasValue (catalog : Catalog) (fullName enumName : String) (shared : Shared EnumInfo)
    (value : EnumValueInfo) : Prop where
  enum : catalog.enum? enumName = some shared
  mem : value ∈ shared.value.values
  name : value.name = fullName

variable {S : Schema} {strict : Bool} {catalog : Catalog} {fullName enumName other : String}
variable {shared sibling : Shared EnumInfo} {value twin : EnumValueInfo}

theorem HasValue.declared (h : catalog.HasValue fullName enumName shared value)
    (hs : Sound S strict catalog) :
    ∃ e, S.enumName e = enumName ∧ S.DescribesEnum e shared.value ∧
      ∀ number, S.DeclaresValue e fullName number ↔ number = value.number := by
  obtain ⟨he, hv, rfl⟩ := h
  obtain ⟨e, hn, hd, hwf⟩ := hs.enum enumName shared he
  rw [hd.values] at hv
  obtain ⟨decl, hdecl, rfl⟩ := List.mem_map.mp hv
  refine ⟨e, hn, hd, fun number => ⟨?_, ?_⟩⟩
  · rintro ⟨other, ho, hname, rfl⟩
    have hshort : other.name = decl.name := String.append_right_inj _ |>.mp hname
    rw [List.inj_on_of_nodup_map hwf.names ho hdecl hshort]
  · rintro rfl
    exact ⟨decl, hdecl, rfl, rfl⟩

theorem HasValue.unique (h : catalog.HasValue fullName enumName shared value)
    (ht : catalog.HasValue fullName other sibling twin) (hs : Sound S true catalog) :
    other = enumName ∧ sibling = shared ∧ twin = value := by
  obtain rfl := hs.enumName_eq ht.enum h.enum ht.mem h.mem (ht.name.trans h.name.symm)
  obtain rfl := Option.some.inj (ht.enum.symm.trans h.enum)
  exact ⟨rfl, rfl, hs.eq_of_enumValue_name_eq h.enum ht.mem h.mem (ht.name.trans h.name.symm)⟩

end Catalog

namespace Registry
variable {S : Schema} {registry : Registry}

/-- The table of values agrees with the values that the published enums list. -/
theorem describeEnumValue_eq_ok_iff_hasValue (hr : Reachable S registry)
    (hstrict : registry.config.strictNames = true) {query : String} {value : EnumValueInfo} :
    registry.describeEnumValue query = .ok value ↔
      ∃ enumName shared,
        registry.catalog.HasValue (Name.normalize query) enumName shared value := by
  rw [describeEnumValue_eq_ok_iff]
  constructor
  · intro h
    obtain ⟨hname, shared, he, hv⟩ := hr.enumValue? h
    exact ⟨value.enumName, shared, he, hv, hname⟩
  · rintro ⟨enumName, shared, h⟩
    rw [← h.name]
    exact hr.enumValue?_of_mem hstrict h.enum h.mem

/-- Where names are strict, a question about an enum value is answered with the one published value
of that full name, by whatever way its enum was registered, and a failed registration changes no
answer. -/
theorem describeEnumValue_exact (hr : Reachable S registry)
    (hstrict : registry.config.strictNames = true) (query : String) :
    (∀ value, registry.describeEnumValue query = .ok value ↔
      ∃ enumName shared,
        registry.catalog.HasValue (Name.normalize query) enumName shared value) ∧
    (∀ enumName shared value,
      registry.catalog.HasValue (Name.normalize query) enumName shared value →
      (∀ other sibling twin,
        registry.catalog.HasValue (Name.normalize query) other sibling twin →
        other = enumName ∧ sibling = shared ∧ twin = value) ∧
      value.enumName = enumName ∧
      ∃ e, S.enumName e = enumName ∧ S.DescribesEnum e shared.value ∧
        ∀ number, S.DeclaresValue e (Name.normalize query) number ↔ number = value.number) ∧
    ((¬ ∃ enumName shared value,
        registry.catalog.HasValue (Name.normalize query) enumName shared value) →
      registry.describeEnumValue query = .error (.notFound (Name.normalize query))) ∧
    ∀ (operation : Operation S) (reason : Failure), operation.isRegistration = true →
      (registry.perform operation).answer = .failure reason →
      (registry.perform operation).registry.describeEnumValue query =
        registry.describeEnumValue query := by
  have hs := hr.sound
  rw [hstrict] at hs
  refine ⟨fun value => describeEnumValue_eq_ok_iff_hasValue hr hstrict, ?_, ?_, ?_⟩
  · intro enumName shared value h
    exact ⟨fun other sibling twin ht => h.unique ht hs, (hs.enumValue h.enum h.mem).1,
      h.declared hs⟩
  · intro hnone
    cases hv : registry.catalog.enumValue? (Name.normalize query) with
    | none => rw [describeEnumValue, hv]
    | some value =>
      have hok := describeEnumValue_eq_ok_iff.mpr hv
      obtain ⟨enumName, shared, h⟩ := (describeEnumValue_eq_ok_iff_hasValue hr hstrict).mp hok
      exact absurd ⟨enumName, shared, value, h⟩ hnone
  · intro operation reason hregistration hf
    rw [(perform_of_failure hregistration hf).2]

theorem describeEnumValue_exact_tree :
    ∃ shared, ((create 0 {}).registry.after [.register Schema.tree.node]).catalog.HasValue
        "t.Color.BLUE" "t.Color" shared ⟨"t.Color.BLUE", "t.Color", 1⟩ ∧
      ((create 0 {}).registry.after [.register Schema.tree.node]).describeEnumValue
        ".t.Color.BLUE" = .ok ⟨"t.Color.BLUE", "t.Color", 1⟩ := by
  have hcolor : (((create 0 {}).registry.after
      [.register Schema.tree.node]).catalog.enum? "t.Color").any (fun shared =>
        shared.value.values.contains ⟨"t.Color.BLUE", "t.Color", 1⟩) = true := by
    decide +kernel
  obtain ⟨shared, he, hv⟩ := (Option.any_eq_true _ _).mp hcolor
  have hr : Reachable .tree ((create 0 {}).registry.after [.register Schema.tree.node]) :=
    (Reachable.create 0 {}).after _
  have hstrict : ((create 0 {}).registry.after
      [.register Schema.tree.node]).config.strictNames = true := by
    rw [after_config, create_config]
  have h : ((create 0 {}).registry.after [.register Schema.tree.node]).catalog.HasValue
      "t.Color.BLUE" "t.Color" shared ⟨"t.Color.BLUE", "t.Color", 1⟩ :=
    ⟨he, List.contains_iff_mem.mp hv, rfl⟩
  have hquery : Name.normalize ".t.Color.BLUE" = "t.Color.BLUE" :=
    Name.normalize_append_dot "t.Color.BLUE"
  have hexact := (describeEnumValue_exact hr hstrict ".t.Color.BLUE").1
  rw [hquery] at hexact
  exact ⟨shared, h, (hexact _).mpr ⟨"t.Color", shared, h⟩⟩

end Registry
end MessageRegistry
