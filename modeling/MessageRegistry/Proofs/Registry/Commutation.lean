import MessageRegistry.Proofs.Registry.Contents
import MessageRegistry.Proofs.Registry.Count

/-!
Registrations in different orders. Main statement: where names are distinct, new registries that
perform the same registrations in two orders end with the same descriptions and the same count of
them, and the same registrations fail.
-/
namespace MessageRegistry
namespace Catalog.Sound
variable {S : Schema} {strict : Bool} {first second : Catalog} {name : String}

theorem message?_eq (hf : Sound S strict first) (hs : Sound S strict second)
    (hd : S.NamesDistinct)
    (h : first.messages.contains name = true ↔ second.messages.contains name = true) :
    (first.message? name).map (·.value) = (second.message? name).map (·.value) := by
  refine Table.map_get?_eq h fun a b ha hb => ?_
  obtain ⟨m, rfl, hdescribes, _⟩ := hf.message name a ha
  exact hdescribes.unique (hs.describes hd hb).1

theorem enum?_eq (hf : Sound S strict first) (hs : Sound S strict second)
    (hd : S.NamesDistinct)
    (h : first.enums.contains name = true ↔ second.enums.contains name = true) :
    (first.enum? name).map (·.value) = (second.enum? name).map (·.value) := by
  refine Table.map_get?_eq h fun a b ha hb => ?_
  obtain ⟨e, rfl, hdescribes, _⟩ := hf.enum name a ha
  obtain ⟨other, hn, hdescribes', _⟩ := hs.enum _ b hb
  obtain rfl := hd.enum other e hn
  exact hdescribes.unique hdescribes'

end Catalog.Sound

namespace Registry
variable {S : Schema} {operations others : List (Operation S)} {element : Element}

theorem sound_after_create (id : Nat) (config : Config) (operations : List (Operation S)) :
    ((create id config).registry.after operations).catalog.Sound S config.strictNames := by
  have hs := ((Reachable.create (S := S) id config).after operations).sound
  rwa [after_config, create_config] at hs

theorem covers_after_create (hd : S.NamesDistinct) (id : Nat) (config : Config)
    (operations : List (Operation S)) :
    ((create id config).registry.after operations).catalog.Covers element ↔
      Catalog.empty.Covers element ∨
        ∃ operation ∈ seeding S ++ operations, operation.Adds config.strictNames element := by
  have hs : (bare id config).catalog.Sound S (bare id config).config.strictNames := .empty
  rw [create_registry S, ← after_append]
  exact covers_after hd hs (seeding S ++ operations)

theorem covers_after_perm (hd : S.NamesDistinct) (config : Config) (first second : Nat)
    (hperm : operations.Perm others) :
    ((create first config).registry.after operations).catalog.Covers element ↔
      ((create second config).registry.after others).catalog.Covers element := by
  rw [covers_after_create hd, covers_after_create hd]
  have hall : (seeding S ++ operations).Perm (seeding S ++ others) := hperm.append_left _
  simp only [hall.mem_iff]

theorem isFailure_transcript_iff (hd : S.NamesDistinct) {registry : Registry}
    (hr : Reachable S registry) {operation : Operation S} {outcome : Outcome Answer}
    (hreg : operation.isRegistration = true)
    (h : (operation, outcome) ∈ registry.transcript operations) :
    outcome.answer.isFailure = true ↔ ¬ operation.Accepted registry.config.strictNames := by
  obtain ⟨before, later, _, rfl⟩ := mem_transcript_iff.mp h
  have hsound := (hr.after before).sound
  rw [isFailure_perform_iff hd hsound hreg, after_config]

/-- Registrations in two orders lead new registries to equal descriptions under the same names and
to the same count, and each of them fails in one order if it does in the other. -/
theorem registrations_commute (hd : S.NamesDistinct) (config : Config) (first second : Nat)
    (hreg : ∀ operation ∈ operations, operation.isRegistration = true)
    (hperm : operations.Perm others) :
    (∀ name,
      (((create first config).registry.after operations).catalog.message? name).map (·.value) =
        (((create second config).registry.after others).catalog.message? name).map (·.value)) ∧
    (∀ name,
      (((create first config).registry.after operations).catalog.enum? name).map (·.value) =
        (((create second config).registry.after others).catalog.enum? name).map (·.value)) ∧
    ((create first config).registry.after operations).stats.registrations =
      ((create second config).registry.after others).stats.registrations ∧
    ∀ operation a b, (operation, a) ∈ (create first config).registry.transcript operations →
      (operation, b) ∈ (create second config).registry.transcript others →
        (a.answer.isFailure = true ↔ b.answer.isFailure = true) := by
  have hs : ((create first config).registry.after operations).catalog.Sound S
      config.strictNames := sound_after_create first config operations
  have hs' : ((create second config).registry.after others).catalog.Sound S
      config.strictNames := sound_after_create second config others
  have hcovers : ∀ element,
      ((create first config).registry.after operations).catalog.Covers element ↔
        ((create second config).registry.after others).catalog.Covers element :=
    fun _ => covers_after_perm hd config first second hperm
  refine ⟨fun name => hs.message?_eq hs' hd (hcovers (.message name)),
    fun name => hs.enum?_eq hs' hd (hcovers (.enum name)), ?_, ?_⟩
  · have hc := ((Reachable.create (S := S) first config).after operations).counted
    have hc' := ((Reachable.create (S := S) second config).after others).counted
    rw [hc.registrations, hc'.registrations]
    exact congrArg Stats.saturate (Table.size_eq_of_contains_iff hc.names hc'.names
      fun name => hcovers (.message name))
  · intro operation a b ha hb
    have hoperation : operation.isRegistration = true := hreg operation (List.of_mem_zip ha).1
    rw [isFailure_transcript_iff hd (.create first config) hoperation ha,
      isFailure_transcript_iff hd (.create second config) hoperation hb, create_config,
      create_config]

/-- A holder that is rejected, a color on its own, and a node that refers to the color. -/
def treeRegistrations : List (Operation .tree) :=
  [.registerTypeOf Schema.tree.holder, .registerEnum Schema.tree.color, .register Schema.tree.node]

theorem registrations_commute_tree :
    (((create 0 {}).registry.after treeRegistrations).catalog.message? "t.Leaf").map (·.value) =
      (((create 1 {}).registry.after treeRegistrations.reverse).catalog.message? "t.Leaf").map
        (·.value) ∧
    ((create 0 {}).registry.after treeRegistrations).stats.registrations =
      ((create 1 {}).registry.after treeRegistrations.reverse).stats.registrations := by
  have hreg : ∀ operation ∈ treeRegistrations, operation.isRegistration = true := by
    simp [treeRegistrations, Operation.isRegistration]
  have hperm : treeRegistrations.Perm treeRegistrations.reverse := (List.reverse_perm _).symm
  obtain ⟨hmessages, _, hcount, _⟩ :=
    registrations_commute Schema.tree.namesDistinct {} 0 1 hreg hperm
  exact ⟨hmessages "t.Leaf", hcount⟩

end Registry
end MessageRegistry
