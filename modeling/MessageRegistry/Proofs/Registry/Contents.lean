import MessageRegistry.Proofs.Registry.Publication
import MessageRegistry.Proofs.Registry.Rejection

/-!
What a run publishes. Main statements: where names are distinct, a run publishes what its accepted
registrations reach, and the declarations alone tell which registrations are accepted.
-/
namespace MessageRegistry

namespace Operation
variable {S : Schema}

def Accepted (strict : Bool) : Operation S → Prop
  | .register m | .registerTypeOf m => S.WellFormedFrom strict m
  | .registerEnum e => S.WellFormedEnum strict e
  | _ => True

/-- The types that an operation publishes, as elements, unless they are published already. -/
def Adds (strict : Bool) (element : Element) : Operation S → Prop
  | .register m | .registerTypeOf m =>
    S.WellFormedFrom strict m ∧ ∃ type, S.ReachesElement m type ∧ S.elementOf type = element
  | .registerEnum e => S.WellFormedEnum strict e ∧ element = .enum (S.enumName e)
  | _ => False

theorem not_adds {operation : Operation S} {strict : Bool} {element : Element}
    (h : operation.isRegistration = false) : ¬ operation.Adds strict element := by
  cases operation with
  | register _ | registerTypeOf _ | registerEnum _ => cases h
  | describe _ | describeEnum _ | describeEnumValue _ | contains _ | size | isEmpty | typeNames
  | config => exact not_false

end Operation

namespace Catalog
variable {S : Schema} {strict : Bool} {catalog : Catalog} {m : S.Message}

theorem Sound.covers_of_reaches (h : Sound S strict catalog) (hd : S.NamesDistinct)
    (hk : catalog.messages.contains (S.messageName m) = true) {type : S.FieldType}
    (hr : S.ReachesElement m type) : catalog.Covers (S.elementOf type) := by
  cases type with
  | scalar kind => trivial
  | message t => exact h.reaches hd hk hr
  | enum e => exact h.reachesEnum hd hk hr

end Catalog

namespace Registry
variable {S : Schema} {registry next : Registry} {m : S.Message} {e : S.Enum} {element : Element}
variable {operation : Operation S}

theorem Step.covers (h : Step S registry next) (hc : registry.catalog.Covers element) :
    next.catalog.Covers element := by
  cases element with
  | scalar kind => trivial
  | message typeName => exact h.keeps hc
  | enum enumName => exact h.keepsEnum hc

theorem Registered.reachesElement {outcome : Outcome (Except Failure (Shared MessageInfo))}
    (h : Registered S registry m outcome) (hc : outcome.registry.catalog.Covers element) :
    registry.catalog.Covers element ∨
      ∃ type, S.ReachesElement m type ∧ S.elementOf type = element := by
  cases element with
  | scalar kind => exact Or.inl trivial
  | message typeName =>
    refine (h.reaches hc).imp_right ?_
    rintro ⟨t, ht, rfl⟩
    exact ⟨.message t, ht, rfl⟩
  | enum enumName =>
    refine (h.reachesEnum hc).imp_right ?_
    rintro ⟨e, he, rfl⟩
    exact ⟨.enum e, he, rfl⟩

section Register
variable (hd : S.NamesDistinct) (hs : registry.catalog.Sound S registry.config.strictNames)
include hd hs

theorem registerEnum_isOk_iff :
    (∃ info, (registry.registerEnum S e).answer = .ok info) ↔
      S.WellFormedEnum registry.config.strictNames e := by
  have h : RegisteredEnum S registry e (registry.registerEnum S e) := registeredEnum_registerEnum
  generalize registry.registerEnum S e = outcome at h
  cases h with
  | @known info hk =>
    have hwf := hs.wellFormedEnum hd (Option.isSome_iff_exists.mpr ⟨info, hk⟩)
    exact iff_of_true ⟨info, rfl⟩ hwf
  | rejected _ hdescribe =>
    refine iff_of_false (by simp) fun hwf => ?_
    rw [Schema.describe?_eq_ok_iff.mpr ⟨hwf, rfl⟩] at hdescribe
    cases hdescribe
  | @published _ info _ hdescribe _ =>
    exact iff_of_true ⟨info, rfl⟩ (Schema.describe?_eq_ok_iff.mp hdescribe).1

theorem covers_register :
    (registry.register S m).registry.catalog.Covers element ↔
      registry.catalog.Covers element ∨
        (Operation.register m).Adds registry.config.strictNames element := by
  have h : Registered S registry m (registry.register S m) := registered_register
  have hstep : Step S registry (registry.register S m).registry := .register m
  constructor
  · intro hc
    cases ha : (registry.register S m).answer with
    | error reason =>
      rw [(h.of_error ha).2] at hc
      exact Or.inl hc
    | ok info =>
      have hwf := h.wellFormedFrom hd hs ha
      exact (h.reachesElement hc).imp_right fun hr => ⟨hwf, hr⟩
  · rintro (hc | ⟨hwf, type, hr, rfl⟩)
    · exact hstep.covers hc
    · obtain ⟨info, ha⟩ := h.isOk hwf
      exact (hstep.sound hs).covers_of_reaches hd (h.contains ha) hr

end Register

theorem covers_publish_stageEnum {owner : Nat} {catalog : Catalog} {strict : Bool}
    (hwf : S.WellFormedEnum strict e) :
    (catalog.publish owner (Draft.empty.stageEnum (S.enum e).describe).messages.values
        (Draft.empty.stageEnum (S.enum e).describe).enums.values).Covers element ↔
      catalog.Covers element ∨ element = .enum (S.enumName e) := by
  have hf : (Draft.empty.stageEnum (S.enum e).describe).Finished S catalog strict :=
    Registration.finished_stageEnum (Schema.describe?_eq_ok_iff.mpr ⟨hwf, rfl⟩)
  cases element with
  | scalar kind => exact iff_of_true trivial (Or.inl trivial)
  | message typeName =>
    rw [or_iff_left (by simp)]
    exact (Catalog.contains_publish_draft hf.sound typeName).trans Draft.knows_empty
  | enum enumName =>
    have hname : Element.enum enumName = .enum (S.enumName e) ↔
        (S.enum e).describe.name = enumName := by
      rw [Element.enum.injEq, eq_comm, (Schema.describesEnum_describe e).name]
    rw [hname]
    exact (Catalog.contains_enums_publish_draft hf.sound enumName).trans
      (Draft.knowsEnum_stageEnum.trans (or_congr_left Draft.knowsEnum_empty))

theorem covers_registerEnum :
    (registry.registerEnum S e).registry.catalog.Covers element ↔
      registry.catalog.Covers element ∨
        (Operation.registerEnum e).Adds registry.config.strictNames element := by
  have h : RegisteredEnum S registry e (registry.registerEnum S e) := registeredEnum_registerEnum
  generalize registry.registerEnum S e = outcome at h
  cases h with
  | @known info hk =>
    symm
    apply or_iff_left_of_imp
    rintro ⟨_, rfl⟩
    exact Option.isSome_iff_exists.mpr ⟨info, hk⟩
  | rejected _ hdescribe =>
    symm
    apply or_iff_left_of_imp
    rintro ⟨hwf, _⟩
    rw [Schema.describe?_eq_ok_iff.mpr ⟨hwf, rfl⟩] at hdescribe
    cases hdescribe
  | published _ hdescribe _ =>
    obtain ⟨hwf, rfl⟩ := Schema.describe?_eq_ok_iff.mp hdescribe
    exact (covers_publish_stageEnum hwf).trans (or_congr_right (and_iff_right hwf).symm)

theorem catalog_perform (h : operation.isRegistration = false) :
    (registry.perform operation).registry.catalog = registry.catalog := by
  cases operation with
  | register _ | registerTypeOf _ | registerEnum _ => cases h
  | describe name =>
    rw [perform_describe, Registry.describe]
    split <;> rfl
  | describeEnum _ | describeEnumValue _ | contains _ | size | isEmpty | typeNames | config => rfl

theorem isFailure_ofExcept_iff {α : Type} {ok : α → Answer} {result : Except Failure α}
    (hok : ∀ a, (ok a).isFailure = false) :
    (Answer.ofExcept ok result).isFailure = true ↔ ¬ ∃ a, result = .ok a := by
  cases result with
  | error reason => simp [Answer.ofExcept, Answer.isFailure]
  | ok a => simp [Answer.ofExcept, hok]

section Run
variable (hd : S.NamesDistinct) (hs : registry.catalog.Sound S registry.config.strictNames)
include hd hs

/-- Whether a registration fails is decided by the declarations alone. -/
theorem isFailure_perform_iff (hr : operation.isRegistration = true) :
    (registry.perform operation).answer.isFailure = true ↔
      ¬ operation.Accepted registry.config.strictNames := by
  cases operation with
  | register m | registerTypeOf m =>
    exact (isFailure_ofExcept_iff fun _ => rfl).trans (not_congr (register_isOk_iff hd hs))
  | registerEnum e =>
    exact (isFailure_ofExcept_iff fun _ => rfl).trans (not_congr (registerEnum_isOk_iff hd hs))
  | describe _ | describeEnum _ | describeEnumValue _ | contains _ | size | isEmpty | typeNames
  | config => cases hr

theorem covers_perform :
    (registry.perform operation).registry.catalog.Covers element ↔
      registry.catalog.Covers element ∨ operation.Adds registry.config.strictNames element := by
  by_cases hr : operation.isRegistration = true
  · cases operation with
    | register m =>
      rw [perform_register]
      exact covers_register hd hs
    | registerTypeOf m =>
      rw [perform_registerTypeOf, perform_register]
      exact covers_register hd hs
    | registerEnum e =>
      rw [perform_registerEnum]
      exact covers_registerEnum
    | describe _ | describeEnum _ | describeEnumValue _ | contains _ | size | isEmpty | typeNames
    | config => cases hr
  · have hasked : operation.isRegistration = false := by simpa using hr
    rw [catalog_perform hasked, or_iff_left (Operation.not_adds hasked)]

/-- What is published does not depend on the order of the operations that publish it. -/
theorem covers_after (operations : List (Operation S)) :
    (registry.after operations).catalog.Covers element ↔
      registry.catalog.Covers element ∨
        ∃ operation ∈ operations, operation.Adds registry.config.strictNames element := by
  induction operations generalizing registry with
  | nil => simp [after]
  | cons operation operations ih =>
    have hstep : Step S registry (registry.perform operation).registry := step_perform operation
    rw [after_cons, ih (hstep.sound hs), covers_perform hd hs, hstep.config, or_assoc]
    simp only [List.mem_cons, exists_eq_or_imp]

end Run
end Registry
end MessageRegistry
