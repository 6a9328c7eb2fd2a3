import MessageRegistry.Proofs.Registration.Leniency
import MessageRegistry.Proofs.Registry.Run
import MessageRegistry.Proofs.Registry.Seed

/-!
Registries with strict and with lenient names. Main statement: as long as a strict registry rejects
nothing for a name, a lenient one goes the same way, operation by operation.
-/
namespace MessageRegistry

/-- Whether an answer is a rejection for the name of a field, or for an enum. -/
def Answer.isAboutNames : Answer → Bool
  | .failure (.rejected fault) => fault.isAboutNames
  | _ => false

def Answer.withConfig (config : Config) : Answer → Answer
  | .config _ => .config config
  | answer => answer

def Registry.withConfig (config : Config) (registry : Registry) : Registry :=
  { registry with config := config }

def Outcome.withConfig {α : Type} (config : Config) (outcome : Outcome α) : Outcome α :=
  { outcome with registry := outcome.registry.withConfig config }

namespace Outcome
variable {α β : Type} (config : Config)

theorem map_ofExcept_withConfig {ok : α → Answer} (hok : ∀ a, (ok a).withConfig config = ok a)
    (outcome : Outcome (Except Failure α)) :
    (outcome.withConfig config).map (Answer.ofExcept ok) =
      ((outcome.map (Answer.ofExcept ok)).map (Answer.withConfig config)).withConfig config := by
  obtain ⟨answer, events, registry⟩ := outcome
  cases answer with
  | error reason => rfl
  | ok a => simp only [map, withConfig, Answer.ofExcept, hok]

theorem andThen_withConfig (outcome : Outcome α) {next : α → Registry → Outcome β}
    (h : next outcome.answer (outcome.registry.withConfig config) =
      (next outcome.answer outcome.registry).withConfig config) :
    (outcome.withConfig config).andThen next = (outcome.andThen next).withConfig config := by
  simp only [andThen, withConfig] at h ⊢
  rw [h]

end Outcome

namespace Registry
variable {S : Schema} {registry : Registry} {strict lenient : Config}

section Register
variable (hs : registry.config.strictNames = true) (hl : lenient.strictNames = false)
include hs hl

theorem build_withConfig {m : S.Message}
    (h : (Answer.ofExcept .message (registry.build S m).answer).isAboutNames = false) :
    (registry.withConfig lenient).build S m = (registry.build S m).withConfig lenient := by
  have hwalk : Registration.Restricts (Registration.draftMessage S registry.catalog true m)
      (Registration.draftMessage S registry.catalog false m) := Registration.walk_restricts
  rcases hwalk with ⟨fault, trail, hstrict, hnames⟩ | hsame
  · simp only [build, hs, hstrict] at h
    exact absurd (hnames.symm.trans h) (by simp)
  · simp only [build, withConfig, hs, hl, hsame]
    cases Registration.draftMessage S registry.catalog true m with
    | error halt => cases halt <;> rfl
    | ok draft => rfl

theorem register_withConfig {m : S.Message}
    (h : (Answer.ofExcept .message (registry.register S m).answer).isAboutNames = false) :
    (registry.withConfig lenient).register S m = (registry.register S m).withConfig lenient := by
  unfold register at h ⊢
  by_cases hn : S.messageName m = ""
  · rw [if_pos hn, if_pos hn]
    rfl
  · rw [if_neg hn] at h ⊢
    rw [if_neg hn]
    cases hk : registry.catalog.message? (S.messageName m) with
    | some info =>
      simp only [withConfig, hk]
      rfl
    | none =>
      simp only [registerExclusively, hk] at h ⊢
      simp only [withConfig, hk]
      exact build_withConfig hs hl h

theorem registerEnum_withConfig {e : S.Enum}
    (h : (Answer.ofExcept .enum (registry.registerEnum S e).answer).isAboutNames = false) :
    (registry.withConfig lenient).registerEnum S e =
      (registry.registerEnum S e).withConfig lenient := by
  have hwalk : Registration.Restricts (Registration.draftEnum S registry.catalog true e)
      (Registration.draftEnum S registry.catalog false e) :=
    Registration.ensureEnum_restricts e .empty
  cases hk : registry.catalog.enum? (S.enumName e) with
  | some info =>
    simp only [registerEnum, withConfig, hk]
    rfl
  | none =>
    rcases hwalk with ⟨fault, trail, hstrict, hnames⟩ | hsame
    · simp only [registerEnum, hs, hk, hstrict] at h
      exact absurd (hnames.symm.trans h) (by simp)
    · simp only [registerEnum, withConfig, hs, hl, hk, hsame]
      cases Registration.draftEnum S registry.catalog true e with
      | error halt => cases halt <;> rfl
      | ok draft => rfl

end Register

/-- An operation that a strict registry does not reject for a name is performed by a lenient one in
the same way. -/
theorem perform_withConfig (hs : registry.config.strictNames = true)
    (hl : lenient.strictNames = false) {operation : Operation S}
    (h : (registry.perform operation).answer.isAboutNames = false) :
    (registry.withConfig lenient).perform operation =
      ((registry.perform operation).map (.withConfig lenient)).withConfig lenient := by
  cases operation with
  | register m | registerTypeOf m =>
    exact (congrArg (Outcome.map _) (register_withConfig hs hl h)).trans
      (Outcome.map_ofExcept_withConfig lenient (fun _ => rfl) _)
  | registerEnum e =>
    exact (congrArg (Outcome.map _) (registerEnum_withConfig hs hl h)).trans
      (Outcome.map_ofExcept_withConfig lenient (fun _ => rfl) _)
  | describe name =>
    simp only [perform, Registry.describe, withConfig]
    cases registry.catalog.message? (Name.normalize name) <;> rfl
  | describeEnum name =>
    simp only [perform, Registry.describeEnum, withConfig]
    cases registry.catalog.enum? (Name.normalize name) <;> rfl
  | describeEnumValue name =>
    simp only [perform, Registry.describeEnumValue, withConfig]
    cases registry.catalog.enumValue? (Name.normalize name) <;> rfl
  | contains name | size | isEmpty | typeNames | config => rfl

theorem run_withConfig (hs : registry.config.strictNames = true)
    (hl : lenient.strictNames = false) {operations : List (Operation S)}
    (h : ∀ outcome ∈ registry.run operations, outcome.answer.isAboutNames = false) :
    (registry.withConfig lenient).run operations =
      (registry.run operations).map fun outcome =>
        (outcome.map (.withConfig lenient)).withConfig lenient := by
  induction operations generalizing registry with
  | nil => rfl
  | cons operation operations ih =>
    obtain ⟨hfirst, hrest⟩ := List.forall_mem_cons.mp h
    have hconfig : (registry.perform operation).registry.config.strictNames = true := by
      rw [(step_perform operation).config, hs]
    have hnext := ih hconfig hrest
    simp only [run, perform_withConfig hs hl hfirst, List.map_cons]
    exact congrArg _ hnext

section Create

theorem RegisteredEnum.isOk {e : S.Enum} {outcome : Outcome (Except Failure (Shared EnumInfo))}
    (h : RegisteredEnum S registry e outcome)
    (hwf : S.WellFormedEnum registry.config.strictNames e) :
    ∃ info, outcome.answer = .ok info := by
  cases h with
  | @known info _ => exact ⟨info, rfl⟩
  | rejected _ hdescribe =>
    rw [Schema.describe?_eq_ok_iff.mpr ⟨hwf, rfl⟩] at hdescribe
    cases hdescribe
  | @published _ info _ _ _ => exact ⟨info, rfl⟩

theorem seedEnum_withConfig (hs : registry.config.strictNames = true)
    (hl : lenient.strictNames = false) :
    (registry.withConfig lenient).seedEnum = registry.seedEnum.withConfig lenient := by
  have h : RegisteredEnum .empty registry .nullValue (registry.registerEnum .empty .nullValue) :=
    registeredEnum_registerEnum
  obtain ⟨info, hok⟩ := h.isOk (Schema.empty.wellFormedEnum_nullValue _)
  rw [seedEnum, registerEnum_withConfig hs hl (by rw [hok]; rfl)]
  exact Outcome.andThen_withConfig lenient _ rfl

theorem seedMessages_withConfig (hs : registry.config.strictNames = true)
    (hl : lenient.strictNames = false) {messages : List WellKnownMessage}
    (hseeded : ∀ message ∈ messages, message ∈ WellKnownMessage.seeded) :
    (registry.withConfig lenient).seedMessages messages =
      (registry.seedMessages messages).withConfig lenient := by
  induction messages generalizing registry with
  | nil => rfl
  | cons message messages ih =>
    obtain ⟨hmessage, hmessages⟩ := List.forall_mem_cons.mp hseeded
    have h : Registered .empty registry (.wellKnown message)
        (registry.register .empty (.wellKnown message)) := registered_register
    obtain ⟨info, hok⟩ := h.isOk (Schema.wellFormedFrom_seeded _ hmessage)
    have hfirst : (registry.withConfig lenient).seedMessage message =
        (registry.seedMessage message).withConfig lenient := by
      rw [seedMessage, register_withConfig hs hl (by rw [hok]; rfl)]
      exact Outcome.andThen_withConfig lenient _ rfl
    have hconfig : (registry.seedMessage message).registry.config.strictNames = true := by
      have hstep : Step .empty registry
        (registry.register .empty (.wellKnown message)).registry := .register _
      rw [seedMessage, Outcome.registry_andThen, hstep.config, hs]
    rw [seedMessages, seedMessages, hfirst]
    exact Outcome.andThen_withConfig lenient _ (ih hconfig hmessages)

theorem create_withConfig (id : Nat) (hs : strict.strictNames = true)
    (hl : lenient.strictNames = false) :
    create id lenient = (create id strict).withConfig lenient := by
  have hbare : bare id lenient = (bare id strict).withConfig lenient := rfl
  have hstrict : (bare id strict).config.strictNames = true := hs
  have hconfig : (bare id strict).seedEnum.registry.config.strictNames = true := by
    have hstep : Step .empty (bare id strict)
      ((bare id strict).registerEnum .empty .nullValue).registry := .registerEnum _
    rw [seedEnum, Outcome.registry_andThen, hstep.config, hstrict]
  rw [create, create, hbare, seedEnum_withConfig hstrict hl]
  exact Outcome.andThen_withConfig lenient _ (seedMessages_withConfig hconfig hl fun _ h => h)

end Create

/-- A lenient registry starts like a strict one, and as long as the strict one rejects nothing for a
name, it goes the same way: every operation gives the same answer, be it a failure, reports the same
events, and leaves the same catalog and counts behind. Only the configuration itself differs. -/
theorem run_lenient (id : Nat) (hs : strict.strictNames = true) (hl : lenient.strictNames = false)
    {operations : List (Operation S)}
    (h : ∀ outcome ∈ (create id strict).registry.run operations,
      outcome.answer.isAboutNames = false) :
    create id lenient = (create id strict).withConfig lenient ∧
    (create id lenient).registry.run operations =
      ((create id strict).registry.run operations).map fun outcome =>
        (outcome.map (.withConfig lenient)).withConfig lenient := by
  have hcreate : create id lenient = (create id strict).withConfig lenient :=
    create_withConfig id hs hl
  have hconfig : (create id strict).registry.config.strictNames = true := by rw [create_config, hs]
  refine ⟨hcreate, ?_⟩
  rw [hcreate]
  exact run_withConfig hconfig hl h

/-- A holder that is rejected, nodes, and questions about what came with them. -/
def treeSession : List (Operation .tree) :=
  [.register Schema.tree.holder, .register Schema.tree.node, .describe "t.Leaf",
    .describeEnumValue "t.Color.RED", .config]

/-- A holder is rejected by a lenient registry too, for the number that two fields share, and nodes
are registered as they are by a strict one. -/
theorem run_lenient_tree :
    (∀ outcome ∈ (create 0 {}).registry.run treeSession, outcome.answer.isAboutNames = false) ∧
    (create 0 { strictNames := false }).registry.run treeSession =
      ((create 0 {}).registry.run treeSession).map fun outcome =>
        (outcome.map (.withConfig { strictNames := false })).withConfig
          { strictNames := false } := by
  have h : ∀ outcome ∈ (create 0 {}).registry.run treeSession,
      outcome.answer.isAboutNames = false := by
    decide +kernel
  exact ⟨h, (run_lenient 0 rfl rfl h).2⟩

end Registry
end MessageRegistry
