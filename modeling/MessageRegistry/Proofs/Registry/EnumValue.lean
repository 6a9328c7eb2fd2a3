import MessageRegistry.Proofs.Catalog.EnumValue
import MessageRegistry.Proofs.Registry.Acceptance
import MessageRegistry.Proofs.Registry.Run

/-!
Answers about enum values in the course of a run. Main statement: an answer changes when an enum is
published that has a value of the same full name, and only then; where names are strict, it stays.
-/
namespace MessageRegistry

namespace Registry
variable {S : Schema} {registry next : Registry} {query : String} {value : EnumValueInfo}

theorem Step.succeeds (h : Step S registry next) : registry.catalog.Succeeds next.catalog := by
  cases h with
  | count _ => exact .refl _
  | publish hf fresh | publishEnums hf fresh _ =>
    exact Catalog.succeeds_publish_draft hf.sound fresh

theorem succeeds_after (registry : Registry) (operations : List (Operation S)) :
    registry.catalog.Succeeds (registry.after operations).catalog :=
  after_induction (P := fun next => registry.catalog.Succeeds next.catalog)
    (fun _ _ hstep h => h.trans hstep.succeeds) (.refl _) operations

theorem Reachable.succeeds (h : Reachable S registry) :
    Catalog.empty.Succeeds registry.catalog :=
  h.induction (P := fun registry => Catalog.empty.Succeeds registry.catalog)
    (fun _ _ => .refl _) fun _ _ hstep h => h.trans hstep.succeeds

theorem Reachable.enumValue? (h : Reachable S registry) {name : String}
    (hv : registry.catalog.enumValue? name = some value) :
    value.name = name ∧ ∃ shared, registry.catalog.enum? value.enumName = some shared ∧
      value ∈ shared.value.values := by
  by_cases hnamed : ∃ other, Catalog.empty.Gains registry.catalog other ∧ other.name = name
  · obtain ⟨other, ho, rfl⟩ := hnamed
    obtain ⟨latest, ⟨enumName, shared, _, he, hm⟩, hname, hanswer⟩ := h.succeeds.gained other ho
    obtain rfl := Option.some.inj (hanswer.symm.trans hv)
    obtain rfl := (h.sound.enumValue he hm).1
    exact ⟨hname, shared, he, hm⟩
  · rw [h.succeeds.kept name fun other ho hn => hnamed ⟨other, ho, hn⟩] at hv
    cases hv

theorem describeEnumValue_eq_ok_iff :
    registry.describeEnumValue query = .ok value ↔
      registry.catalog.enumValue? (Name.normalize query) = some value := by
  unfold describeEnumValue
  cases registry.catalog.enumValue? (Name.normalize query) <;> simp

/-- A full name that was answered stays answered. The answer changes when an enum is published that
has a value of the same full name, and only then; where names are strict, there is no such enum. -/
theorem describeEnumValue_after (hr : Reachable S registry)
    (h : registry.describeEnumValue query = .ok value) (operations : List (Operation S)) :
    (∃ latest, (registry.after operations).describeEnumValue query = .ok latest ∧
      latest.name = value.name) ∧
    ((registry.after operations).describeEnumValue query = .ok value ↔
      ∀ gained, registry.catalog.Gains (registry.after operations).catalog gained →
        gained.name ≠ value.name) ∧
    (registry.config.strictNames = true →
      (registry.after operations).describeEnumValue query = .ok value) := by
  have hfollows := registry.succeeds_after operations
  have hsound := (hr.after operations).sound
  rw [after_config] at hsound
  simp only [describeEnumValue_eq_ok_iff] at h ⊢
  obtain ⟨hname, shared, he, hm⟩ := hr.enumValue? h
  rw [← hname] at h ⊢
  have hsame := hfollows.enumValue?_eq_iff hsound h he
  refine ⟨hfollows.exists_enumValue? h, hsame, fun hstrict => hsame.mpr fun gained hg => ?_⟩
  rw [hstrict] at hsound
  exact hfollows.name_ne_of_gains hsound he hm hg

/-- A color keeps its value while a node is registered and a holder of nodes is rejected. -/
theorem describeEnumValue_after_tree :
    (((create 0 {}).registry.after [.registerEnum Schema.tree.color]).after
        [.register Schema.tree.node, .register Schema.tree.holder]).describeEnumValue
      ".t.Color.BLUE" = .ok ⟨"t.Color.BLUE", "t.Color", 1⟩ := by
  have hr : Reachable .tree ((create 0 {}).registry.after [.registerEnum Schema.tree.color]) :=
    (Reachable.create 0 {}).after _
  have hanswer : ((create 0 {}).registry.after
      [.registerEnum Schema.tree.color]).describeEnumValue ".t.Color.BLUE" =
        .ok ⟨"t.Color.BLUE", "t.Color", 1⟩ := by
    rw [describeEnumValue_eq_ok_iff]
    decide +kernel
  obtain ⟨_, _, hstrict⟩ := describeEnumValue_after hr hanswer
    [.register Schema.tree.node, .register Schema.tree.holder]
  apply hstrict
  rw [after_config, create_config]

end Registry

/-- An enum with a dot in the name of a value, and one inside its scope: both have a value of the
same full name. -/
def Schema.joined : Schema where
  messageCount := 0
  enumCount := 2
  messages := #v[]
  enums := #v[⟨"a", [⟨"b.C", 1⟩]⟩, ⟨"a.b", [⟨"C", 2⟩]⟩]

namespace Schema.joined

def outer : joined.Enum := .declared ⟨0, by decide⟩

def inner : joined.Enum := .declared ⟨1, by decide⟩

end Schema.joined

/-- Where names are not strict, the full name of a published value may be taken over by a value of
another enum. -/
theorem Registry.describeEnumValue_after_joined :
    ((create 0 { strictNames := false }).registry.after
        [.registerEnum Schema.joined.outer]).describeEnumValue "a.b.C" =
      .ok ⟨"a.b.C", "a", 1⟩ ∧
    (((create 0 { strictNames := false }).registry.after
        [.registerEnum Schema.joined.outer]).after
        [.registerEnum Schema.joined.inner]).describeEnumValue "a.b.C" =
      .ok ⟨"a.b.C", "a.b", 2⟩ := by
  rw [describeEnumValue_eq_ok_iff, describeEnumValue_eq_ok_iff]
  decide +kernel

end MessageRegistry
