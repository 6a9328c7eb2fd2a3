import MessageRegistry.Proofs.Catalog.Sound
import MessageRegistry.Proofs.Registration.Fresh
import MessageRegistry.Registry.Register

/-!
Registrations, case by case. Main statements: what the registration of a message type and that of
an enum come to.
-/
namespace MessageRegistry

structure Draft.Finished (S : Schema) (catalog : Catalog) (strict : Bool) (draft : Draft) :
    Prop where
  sound : draft.Sound S catalog strict
  inProgress : draft.inProgress = []

namespace Registration
variable {S : Schema} {catalog : Catalog} {strict : Bool} {m : S.Message} {e : S.Enum}
variable {draft : Draft}

theorem finished_draftMessage (h : draftMessage S catalog strict m = .ok draft) :
    draft.Finished S catalog strict :=
  ⟨(walk_walked h).sound .empty, (walk_walked h).extension.inProgress⟩

theorem fresh_draftMessage (h : draftMessage S catalog strict m = .ok draft) :
    draft.Fresh catalog :=
  walk_fresh h .empty

theorem knows_draftMessage (h : draftMessage S catalog strict m = .ok draft) :
    draft.Knows catalog (S.messageName m) := by
  rcases (walk_walked h).covers with hp | hk
  · rw [(finished_draftMessage h).inProgress] at hp
    exact absurd hp List.not_mem_nil
  · exact hk

theorem draftEnum_of_not_contains (h : ¬ catalog.enums.contains (S.enumName e) = true) :
    draftEnum S catalog strict e =
      match (S.enum e).describe? strict with
      | .error fault => .error (.rejected fault [])
      | .ok info => .ok (Draft.empty.stageEnum info) := by
  rw [← Draft.knowsEnum_empty] at h
  exact ensureEnum_new h

theorem finished_stageEnum {info : EnumInfo} (h : (S.enum e).describe? strict = .ok info) :
    (Draft.empty.stageEnum info).Finished S catalog strict := by
  obtain ⟨hwf, rfl⟩ := Schema.describe?_eq_ok_iff.mp h
  exact ⟨Draft.Sound.empty.stageEnum (Schema.describesEnum_describe e) hwf, rfl⟩

theorem fresh_stageEnum {info : EnumInfo} (hk : catalog.enum? (S.enumName e) = none)
    (h : (S.enum e).describe? strict = .ok info) : (Draft.empty.stageEnum info).Fresh catalog := by
  obtain ⟨_, rfl⟩ := Schema.describe?_eq_ok_iff.mp h
  exact Draft.Fresh.empty.stageEnum ((Table.not_contains_iff _ _).mpr hk)

end Registration

namespace Registry
variable {S : Schema} {registry : Registry} {m : S.Message} {e : S.Enum}
variable {outcome : Outcome (Except Failure (Shared MessageInfo))} {info : Shared MessageInfo}

/-- What the registration of a message type comes to. -/
inductive Registered (S : Schema) (registry : Registry) (m : S.Message) :
    Outcome (Except Failure (Shared MessageInfo)) → Prop
  | unnamed (h : S.messageName m = "") :
      Registered S registry m ⟨.error (.rejected .emptyTypeName), [], registry⟩
  | known {info : Shared MessageInfo} (hn : S.messageName m ≠ "")
      (h : registry.catalog.message? (S.messageName m) = some info) :
      Registered S registry m ⟨.ok info, [], registry.countHit⟩
  | rejected {fault : Fault} {trail : List Visit} (hn : S.messageName m ≠ "")
      (hk : registry.catalog.message? (S.messageName m) = none)
      (h : Registration.draftMessage S registry.catalog registry.config.strictNames m =
        .error (.rejected fault trail)) :
      Registered S registry m ⟨.error (.rejected fault),
        Visit.reports trail ++ [.rejectedType (S.messageName m) fault], registry⟩
  | published {draft : Draft} {info : Shared MessageInfo} (hn : S.messageName m ≠ "")
      (hk : registry.catalog.message? (S.messageName m) = none)
      (h : Registration.draftMessage S registry.catalog registry.config.strictNames m = .ok draft)
      (hi : (registry.publish draft).catalog.message? (S.messageName m) = some info) :
      Registered S registry m ⟨.ok info, Visit.reports draft.trail ++ draft.publications,
        { registry.publish draft with
          stats := registry.stats.countRegistrations draft.messages.size }⟩

theorem message?_publish_draftMessage {draft : Draft}
    (h : Registration.draftMessage S registry.catalog registry.config.strictNames m = .ok draft) :
    ∃ info, (registry.publish draft).catalog.message? (S.messageName m) = some info := by
  have hs := (Registration.finished_draftMessage h).sound
  have hk := Registration.knows_draftMessage h
  exact Option.isSome_iff_exists.mp ((Catalog.contains_publish_draft hs _).mpr hk)

theorem registered_build (hn : S.messageName m ≠ "")
    (hk : registry.catalog.message? (S.messageName m) = none) :
    Registered S registry m (registry.build S m) := by
  unfold build
  cases hd : Registration.draftMessage S registry.catalog registry.config.strictNames m with
  | error halt =>
    cases halt with
    | exhausted => exact absurd hd Registration.draftMessage_ne_exhausted
    | rejected fault trail => exact .rejected hn hk hd
  | ok draft =>
    obtain ⟨info, hi⟩ := message?_publish_draftMessage hd
    simp only [hi]
    exact .published hn hk hd hi

theorem registered_register : Registered S registry m (registry.register S m) := by
  unfold register
  by_cases hn : S.messageName m = ""
  · rw [if_pos hn]
    exact .unnamed hn
  · rw [if_neg hn]
    cases hk : registry.catalog.message? (S.messageName m) with
    | some info => exact .known hn hk
    | none =>
      simp only [registerExclusively, hk]
      exact registered_build hn hk

/-- The answer of a registration is what is published under the name of its type. -/
theorem Registered.message? (h : Registered S registry m outcome)
    (hok : outcome.answer = .ok info) :
    outcome.registry.catalog.message? (S.messageName m) = some info := by
  cases h with
  | unnamed _ | rejected _ _ _ => simp at hok
  | known _ hk =>
    obtain rfl := Except.ok.inj hok
    exact hk
  | published _ _ _ hi =>
    obtain rfl := Except.ok.inj hok
    exact hi

theorem Registered.contains (h : Registered S registry m outcome)
    (hok : outcome.answer = .ok info) :
    outcome.registry.catalog.messages.contains (S.messageName m) = true :=
  Option.isSome_iff_exists.mpr ⟨info, h.message? hok⟩

/-- What the registration of an enum comes to. -/
inductive RegisteredEnum (S : Schema) (registry : Registry) (e : S.Enum) :
    Outcome (Except Failure (Shared EnumInfo)) → Prop
  | known {info : Shared EnumInfo} (h : registry.catalog.enum? (S.enumName e) = some info) :
      RegisteredEnum S registry e ⟨.ok info, [], registry⟩
  | rejected {fault : Fault} (hk : registry.catalog.enum? (S.enumName e) = none)
      (h : (S.enum e).describe? registry.config.strictNames = .error fault) :
      RegisteredEnum S registry e
        ⟨.error (.rejected fault), [.rejectedEnum (S.enumName e) fault], registry⟩
  | published {described : EnumInfo} {info : Shared EnumInfo}
      (hk : registry.catalog.enum? (S.enumName e) = none)
      (h : (S.enum e).describe? registry.config.strictNames = .ok described)
      (hi : (registry.publish (Draft.empty.stageEnum described)).catalog.enum? (S.enumName e) =
        some info) :
      RegisteredEnum S registry e ⟨.ok info, (Draft.empty.stageEnum described).publications,
        registry.publish (Draft.empty.stageEnum described)⟩

theorem enum?_publish_stageEnum {info : EnumInfo}
    (h : (S.enum e).describe? registry.config.strictNames = .ok info) :
    ∃ shared, (registry.publish (Draft.empty.stageEnum info)).catalog.enum? (S.enumName e) =
      some shared := by
  have hf : (Draft.empty.stageEnum info).Finished S registry.catalog registry.config.strictNames :=
    Registration.finished_stageEnum h
  have hn : info.name = S.enumName e := by
    obtain ⟨_, rfl⟩ := Schema.describe?_eq_ok_iff.mp h
    rfl
  have hk : (Draft.empty.stageEnum info).KnowsEnum registry.catalog (S.enumName e) :=
    Draft.knowsEnum_stageEnum.mpr (Or.inr hn)
  exact Option.isSome_iff_exists.mp ((Catalog.contains_enums_publish_draft hf.sound _).mpr hk)

theorem registeredEnum_registerEnum :
    RegisteredEnum S registry e (registry.registerEnum S e) := by
  simp only [registerEnum]
  cases hk : registry.catalog.enum? (S.enumName e) with
  | some info => exact .known hk
  | none =>
    rw [Registration.draftEnum_of_not_contains ((Table.not_contains_iff _ _).mpr hk)]
    cases hd : (S.enum e).describe? registry.config.strictNames with
    | error fault => exact .rejected hk hd
    | ok described =>
      obtain ⟨info, hi⟩ := enum?_publish_stageEnum hd
      simp only [hi]
      exact .published hk hd hi

end Registry
end MessageRegistry
