import MessageRegistry.Proofs.Registry.Register
import MessageRegistry.Proofs.Schema.Embedding
import MessageRegistry.Registry.Operation

/-!
What operations can do to a registry. Main statements: an operation counts or publishes a finished
draft, a new registry comes from a bare one by operations over any schema, and so whatever holds of
bare registries and survives these steps holds of every registry that can be reached.
-/
namespace MessageRegistry

theorem Outcome.registry_map {α β : Type} (f : α → β) (outcome : Outcome α) :
    (outcome.map f).registry = outcome.registry := rfl

theorem Outcome.registry_andThen {α β : Type} (outcome : Outcome α)
    (next : α → Registry → Outcome β) :
    (outcome.andThen next).registry = (next outcome.answer outcome.registry).registry := rfl

namespace Registry
variable {S : Schema} {registry next : Registry}

/-- What one operation does to a registry. Message types are counted as they are published; an enum
that is registered on its own is not. -/
inductive Step (S : Schema) (registry : Registry) : Registry → Prop
  | count {stats : Stats} (h : stats.registrations = registry.stats.registrations) :
      Step S registry { registry with stats := stats }
  | publish {draft : Draft} (h : draft.Finished S registry.catalog registry.config.strictNames)
      (fresh : draft.Fresh registry.catalog) :
      Step S registry { registry.publish draft with
        stats := registry.stats.countRegistrations draft.messages.size }
  | publishEnums {draft : Draft}
      (h : draft.Finished S registry.catalog registry.config.strictNames)
      (fresh : draft.Fresh registry.catalog) (hm : draft.messages = .empty) :
      Step S registry (registry.publish draft)

theorem Step.register (m : S.Message) : Step S registry (registry.register S m).registry := by
  have h : Registered S registry m (registry.register S m) := registered_register
  generalize registry.register S m = outcome at h
  cases h with
  | unnamed _ | known _ _ | rejected _ _ _ => exact .count rfl
  | published _ _ hd _ =>
    exact .publish (Registration.finished_draftMessage hd) (Registration.fresh_draftMessage hd)

theorem Step.registerEnum (e : S.Enum) : Step S registry (registry.registerEnum S e).registry := by
  have h : RegisteredEnum S registry e (registry.registerEnum S e) := registeredEnum_registerEnum
  generalize registry.registerEnum S e = outcome at h
  cases h with
  | known _ | rejected _ _ => exact .count rfl
  | published hk hd _ =>
    exact .publishEnums (Registration.finished_stageEnum hd)
      (Registration.fresh_stageEnum hk hd) rfl

theorem Step.describe (name : String) : Step S registry (registry.describe name).registry := by
  unfold Registry.describe
  split <;> exact .count rfl

theorem perform_register (registry : Registry) (m : S.Message) :
    (registry.perform (.register m)).registry = (registry.register S m).registry :=
  Outcome.registry_map _ _

theorem perform_registerEnum (registry : Registry) (e : S.Enum) :
    (registry.perform (.registerEnum e)).registry = (registry.registerEnum S e).registry :=
  Outcome.registry_map _ _

theorem perform_describe (registry : Registry) (name : String) :
    (registry.perform (.describe name : Operation S)).registry =
      (registry.describe name).registry :=
  Outcome.registry_map _ _

/-- Every operation is such a step. -/
theorem step_perform (operation : Operation S) :
    Step S registry (registry.perform operation).registry := by
  cases operation with
  | register m | registerTypeOf m =>
    have h : Step S registry (registry.register S m).registry := .register m
    rwa [← perform_register] at h
  | registerEnum e =>
    rw [perform_registerEnum]
    exact .registerEnum e
  | describe name =>
    rw [perform_describe]
    exact .describe name
  | describeEnum _ | describeEnumValue _ | contains _ | size | isEmpty | typeNames | config =>
    exact .count rfl

/-- The operations that make a bare registry describe the well-known types. -/
def seeding (S : Schema) : List (Operation S) :=
  .registerEnum .nullValue :: WellKnownMessage.seeded.map fun message =>
    .register (.wellKnown message)

theorem after_cons (registry : Registry) (operation : Operation S)
    (operations : List (Operation S)) :
    registry.after (operation :: operations) =
      (registry.perform operation).registry.after operations := rfl

theorem seedMessages_registry (S : Schema) (registry : Registry)
    (messages : List WellKnownMessage) :
    (registry.seedMessages messages).registry =
      registry.after (messages.map fun message => (.register (.wellKnown message) : Operation S))
    := by
  induction messages generalizing registry with
  | nil => rfl
  | cons message messages ih =>
    have h : registry.register S (.wellKnown message) =
        registry.register .empty (.wellKnown message) :=
      S.wellKnown.register registry (.wellKnown message)
    rw [seedMessages, Outcome.registry_andThen, ih, seedMessage, Outcome.registry_andThen,
      List.map_cons, after_cons, perform_register, h]

/-- The well-known types are the same in every schema. -/
theorem create_registry (S : Schema) (id : Nat) (config : Config) :
    (create id config).registry = (bare id config).after (seeding S) := by
  have h : (bare id config).registerEnum S .nullValue =
      (bare id config).registerEnum .empty .nullValue :=
    S.wellKnown.registerEnum (bare id config) .nullValue
  rw [create, Outcome.registry_andThen, seedMessages_registry S, seedEnum,
    Outcome.registry_andThen, seeding, after_cons, perform_registerEnum, h]

theorem Reachable.register (h : Reachable S registry) (m : S.Message) :
    Reachable S (registry.register S m).registry := by
  rw [← perform_register]
  exact h.perform (.register m)

section Induction
variable {P : Registry → Prop}

theorem after_induction (step : ∀ registry next, Step S registry next → P registry → P next)
    (h : P registry) (operations : List (Operation S)) : P (registry.after operations) := by
  induction operations generalizing registry with
  | nil => exact h
  | cons operation operations ih => exact ih (step _ _ (step_perform operation) h)

/-- Whatever holds of bare registries and survives every step holds of what can be reached. -/
theorem Reachable.induction (bare : ∀ id config, P (bare id config))
    (step : ∀ registry next, Step S registry next → P registry → P next)
    (h : Reachable S registry) : P registry := by
  induction h with
  | create id config =>
    rw [create_registry S]
    exact after_induction step (bare id config) (seeding S)
  | perform operation _ ih => exact step _ _ (step_perform operation) ih

end Induction

theorem Step.config (h : Step S registry next) : next.config = registry.config := by
  cases h <;> rfl

theorem create_config (id : Nat) (config : Config) :
    (create id config).registry.config = config := by
  rw [create_registry .empty]
  exact after_induction (P := fun registry => registry.config = config)
    (fun _ _ hstep h => hstep.config.trans h) rfl (seeding .empty)

/-- A step forgets no published type. -/
theorem Step.keeps (h : Step S registry next) {name : String}
    (hk : registry.catalog.messages.contains name = true) :
    next.catalog.messages.contains name = true := by
  cases h with
  | count _ => exact hk
  | publish _ _ | publishEnums _ _ _ => exact (Catalog.contains_publish name).mpr (Or.inl hk)

theorem Step.keepsEnum (h : Step S registry next) {name : String}
    (hk : registry.catalog.enums.contains name = true) :
    next.catalog.enums.contains name = true := by
  cases h with
  | count _ => exact hk
  | publish _ _ | publishEnums _ _ _ => exact (Catalog.contains_enums_publish name).mpr (Or.inl hk)

/-- A step keeps a catalog sound. -/
theorem Step.sound (h : Step S registry next)
    (hs : registry.catalog.Sound S registry.config.strictNames) :
    next.catalog.Sound S next.config.strictNames := by
  cases h with
  | count _ => exact hs
  | publish hf _ | publishEnums hf _ _ => exact hs.publish hf.sound hf.inProgress

theorem Reachable.sound (h : Reachable S registry) :
    registry.catalog.Sound S registry.config.strictNames :=
  h.induction (P := fun registry => registry.catalog.Sound S registry.config.strictNames)
    (fun _ _ => .empty) fun _ _ hstep hs => hstep.sound hs

end Registry

end MessageRegistry
