import MessageRegistry.Proofs.Registry.Contents

/-!
What a new registry knows. The declarations of the well-known types are well formed, so that seeding
never fails. Main statement: a new registry describes each well-known type by the type's own
declaration.
-/
namespace MessageRegistry

namespace Schema
variable (S : Schema)

/-- Each seeded type is well formed with all it reaches, for it can be drafted. -/
theorem wellFormedFrom_seeded (strict : Bool) {message : WellKnownMessage}
    (h : message ∈ WellKnownMessage.seeded) :
    WellFormedFrom .empty strict (.wellKnown message) := by
  have hall : ∀ strict : Bool, ∀ message ∈ WellKnownMessage.seeded,
      (Registration.draftMessage .empty .empty strict (.wellKnown message)).toOption.isSome =
        true := by
    decide +kernel
  have hsome := hall strict message h
  cases hd : Registration.draftMessage .empty .empty strict (.wellKnown message) with
  | error halt => simp [hd, Except.toOption] at hsome
  | ok draft =>
    exact (Registration.wellFormedFrom_iff_draftMessage namesDistinct_empty).mpr ⟨draft, hd⟩

theorem wellFormedEnum_nullValue (strict : Bool) : S.WellFormedEnum strict .nullValue := by
  constructor
  · rw [enumName_nullValue]
    decide +kernel
  · simp [Schema.enum, EnumDecl.nullValue]
  · intro _ value hv
    obtain rfl := List.mem_singleton.mp hv
    decide +kernel

end Schema

namespace Registry
variable {message : WellKnownMessage}

theorem adds_seeded (strict : Bool) (h : message ∈ WellKnownMessage.seeded) :
    (Operation.register (S := .empty) (.wellKnown message)).Adds strict
      (.message (Schema.empty.messageName (.wellKnown message))) :=
  ⟨Schema.wellFormedFrom_seeded strict h, .message (.wellKnown message), .refl, rfl⟩

/-- What an operation of the seeding adds is there when a registry is new. -/
theorem covers_create (id : Nat) (config : Config) {operation : Operation .empty}
    {element : Element} (h : operation ∈ seeding .empty)
    (hadds : operation.Adds config.strictNames element) :
    (create id config).registry.catalog.Covers element := by
  have hbare : (bare id config).catalog.Sound .empty (bare id config).config.strictNames := .empty
  rw [create_registry .empty]
  exact (covers_after Schema.namesDistinct_empty hbare (seeding .empty)).mpr
    (Or.inr ⟨operation, h, hadds⟩)

theorem sound_create (id : Nat) (config : Config) :
    (create id config).registry.catalog.Sound .empty
      (create id config).registry.config.strictNames :=
  (Reachable.create id config).sound

/-- A new registry describes each seeded message type by the type's own declaration. -/
theorem create_describes_seeded (id : Nat) (config : Config)
    (h : message ∈ WellKnownMessage.seeded) :
    ∃ shared, (create id config).registry.catalog.message? message.name = some shared ∧
      Schema.empty.Describes (.wellKnown message) shared.value := by
  have hseeding : Operation.register (S := .empty) (.wellKnown message) ∈ seeding .empty :=
    List.mem_cons_of_mem _ (List.mem_map_of_mem h)
  obtain ⟨shared, hm⟩ := Option.isSome_iff_exists.mp
    (covers_create id config hseeding (adds_seeded config.strictNames h))
  rw [← Schema.empty.messageName_wellKnown message]
  exact ⟨shared, hm, ((sound_create id config).describes Schema.namesDistinct_empty hm).1⟩

theorem create_describes_nullValue (id : Nat) (config : Config) :
    ∃ shared, (create id config).registry.catalog.enum? WellKnown.nullValueName = some shared ∧
      Schema.empty.DescribesEnum .nullValue shared.value := by
  have hadds : (Operation.registerEnum (S := .empty) .nullValue).Adds config.strictNames
      (.enum (Schema.empty.enumName .nullValue)) :=
    ⟨Schema.empty.wellFormedEnum_nullValue config.strictNames, rfl⟩
  obtain ⟨shared, he⟩ := Option.isSome_iff_exists.mp
    (covers_create id config List.mem_cons_self hadds)
  obtain ⟨e, hn, hdescribes, _⟩ := (sound_create id config).enum _ shared he
  obtain rfl := Schema.namesDistinct_empty.enum e .nullValue hn
  rw [← Schema.empty.enumName_nullValue]
  exact ⟨shared, he, hdescribes⟩

end Registry
end MessageRegistry
