import MessageRegistry.Proofs.Catalog.Identity
import MessageRegistry.Proofs.Registry.Closure
import MessageRegistry.Proofs.Registry.Seed

/-!
Published objects in the course of a run. Main statement: an object stays under its name for good,
so that answers for one name are one object and answers for different names or from different
registries are different ones; and no declaration of a well-known name replaces a well-known type.
-/
namespace MessageRegistry

theorem Answer.ofExcept_message_eq_iff {result : Except Failure (Shared MessageInfo)}
    {info : Shared MessageInfo} :
    Answer.ofExcept .message result = .message info ↔ result = .ok info := by
  cases result <;> simp [Answer.ofExcept]

namespace Registry
variable {S : Schema} {registry next : Registry} {name : String}

theorem Step.message? (h : Step S registry next) {shared : Shared MessageInfo}
    (hm : registry.catalog.message? name = some shared) :
    next.catalog.message? name = some shared := by
  cases h with
  | count _ => exact hm
  | publish hf fresh | publishEnums hf fresh _ =>
    exact Catalog.message?_publish_draft hf.sound fresh hm

theorem Step.enum? (h : Step S registry next) {shared : Shared EnumInfo}
    (he : registry.catalog.enum? name = some shared) : next.catalog.enum? name = some shared := by
  cases h with
  | count _ => exact he
  | publish hf fresh | publishEnums hf fresh _ =>
    exact Catalog.enum?_publish_draft hf.sound fresh he

theorem message?_after {shared : Shared MessageInfo}
    (hm : registry.catalog.message? name = some shared) (operations : List (Operation S)) :
    (registry.after operations).catalog.message? name = some shared :=
  after_induction (P := fun next => next.catalog.message? name = some shared)
    (fun _ _ hstep h => hstep.message? h) hm operations

theorem enum?_after {shared : Shared EnumInfo} (he : registry.catalog.enum? name = some shared)
    (operations : List (Operation S)) :
    (registry.after operations).catalog.enum? name = some shared :=
  after_induction (P := fun next => next.catalog.enum? name = some shared)
    (fun _ _ hstep h => hstep.enum? h) he operations

theorem Step.id (h : Step S registry next) : next.id = registry.id := by
  cases h <;> rfl

theorem after_id (registry : Registry) (operations : List (Operation S)) :
    (registry.after operations).id = registry.id :=
  after_induction (P := fun next => next.id = registry.id)
    (fun _ _ hstep h => hstep.id.trans h) rfl operations

theorem create_id (id : Nat) (config : Config) : (create id config).registry.id = id := by
  rw [create_registry .empty, after_id]
  rfl

theorem Reachable.identified (h : Reachable S registry) :
    registry.catalog.Identified registry.id := by
  refine h.induction (P := fun registry => registry.catalog.Identified registry.id)
    (fun _ _ => .empty) fun registry next hstep hi => ?_
  rw [hstep.id]
  cases hstep with
  | count _ => exact hi
  | publish _ _ | publishEnums _ _ _ => exact hi.publish _ _

section Answers
variable {operation : Operation S} {operations : List (Operation S)} {info : Shared MessageInfo}

theorem message?_of_register {m : S.Message}
    (ha : (registry.perform (.register m)).answer = .message info) :
    (registry.perform (.register m)).registry.catalog.message? (S.messageName m) = some info := by
  rw [answer_perform_register] at ha
  rw [perform_register]
  have h : Registered S registry m (registry.register S m) := registered_register
  exact h.message? (Answer.ofExcept_message_eq_iff.mp ha)

theorem describe_eq_ok_iff {query : String} :
    (registry.describe query).answer = .ok info ↔
      registry.catalog.message? (Name.normalize query) = some info := by
  unfold Registry.describe
  cases registry.catalog.message? (Name.normalize query) <;> simp

theorem message?_of_answer (hn : operation.typeName? = some name)
    (ha : (registry.perform operation).answer = .message info) :
    (registry.perform operation).registry.catalog.message? name = some info := by
  cases operation with
  | register m =>
    obtain rfl := Option.some.inj hn
    exact message?_of_register ha
  | registerTypeOf m =>
    obtain rfl := Option.some.inj hn
    rw [perform_registerTypeOf] at ha ⊢
    exact message?_of_register ha
  | describe query =>
    obtain rfl := Option.some.inj hn
    rw [catalog_perform rfl]
    exact describe_eq_ok_iff.mp (Answer.ofExcept_message_eq_iff.mp ha)
  | registerEnum _ | describeEnum _ | describeEnumValue _ | contains _ | size | isEmpty
  | typeNames | config => cases hn

/-- A request for the message type of that name is answered with `info` in the course of a run. -/
def Yields (registry : Registry) (operations : List (Operation S)) (name : String)
    (info : Shared MessageInfo) : Prop :=
  ∃ operation outcome, (operation, outcome) ∈ registry.transcript operations ∧
    operation.typeName? = some name ∧ outcome.answer = .message info

/-- What a run has answered with is still there at its end. -/
theorem Yields.message?_after (h : registry.Yields operations name info) :
    (registry.after operations).catalog.message? name = some info := by
  obtain ⟨operation, outcome, hmem, hn, ha⟩ := h
  obtain ⟨before, later, rfl, rfl⟩ := mem_transcript_iff.mp hmem
  rw [after_append, after_cons]
  exact Registry.message?_after (message?_of_answer hn ha) later

theorem yields_describe (query : String)
    (hm : (registry.after operations).catalog.message? (Name.normalize query) = some info) :
    registry.Yields (operations ++ [.describe query]) (Name.normalize query) info := by
  refine ⟨.describe query, _, mem_transcript_iff.mpr ⟨operations, [], rfl, rfl⟩, rfl, ?_⟩
  exact Answer.ofExcept_message_eq_iff.mpr (describe_eq_ok_iff.mpr hm)

end Answers

/-- What has been published under a name stays the one object of that name. Answers for one name
are that object, answers for different names or from different registries are different objects,
and no run replaces the description of a well-known type. -/
theorem published_once {first second : Registry} (hf : Reachable S first)
    (hs : Reachable S second) (operations others : List (Operation S)) :
    (∀ name shared, first.catalog.message? name = some shared →
      (first.after operations).catalog.message? name = some shared) ∧
    (∀ name shared, first.catalog.enum? name = some shared →
      (first.after operations).catalog.enum? name = some shared) ∧
    (∀ a b x y, first.Yields operations a x → first.Yields operations b y →
      (a = b → x = y) ∧ (a ≠ b → x.handle ≠ y.handle)) ∧
    (first.id ≠ second.id → ∀ a b x y, first.Yields operations a x → second.Yields others b y →
      x.handle ≠ y.handle) ∧
    ∀ id config,
      (∀ message ∈ WellKnownMessage.seeded, ∃ shared,
        Schema.empty.Describes (.wellKnown message) shared.value ∧
        ((create id config).registry.after operations).catalog.message? message.name =
          some shared) ∧
      ∃ shared, Schema.empty.DescribesEnum .nullValue shared.value ∧
        ((create id config).registry.after operations).catalog.enum? WellKnown.nullValueName =
          some shared := by
  have hfirst := (hf.after operations).identified
  have hsecond := (hs.after others).identified
  rw [after_id] at hfirst hsecond
  refine ⟨fun name shared hm => message?_after hm operations,
    fun name shared he => enum?_after he operations, ?_, ?_, fun id config => ⟨?_, ?_⟩⟩
  · intro a b x y hx hy
    have hxm := hx.message?_after
    have hym := hy.message?_after
    constructor
    · rintro rfl
      exact Option.some.inj (hxm.symm.trans hym)
    · intro hne hsame
      exact hne (hfirst.name_unique _ _ _ _ hxm hym hsame)
  · intro hne a b x y hx hy hsame
    have hxo := hfirst.owner _ _ hx.message?_after
    have hyo := hsecond.owner _ _ hy.message?_after
    rw [hsame] at hxo
    exact hne (hxo.symm.trans hyo)
  · intro message h
    obtain ⟨shared, hm, hd⟩ := create_describes_seeded id config h
    exact ⟨shared, hd, message?_after hm operations⟩
  · obtain ⟨shared, he, hd⟩ := create_describes_nullValue id config
    exact ⟨shared, hd, enum?_after he operations⟩

/-- Two registries in which another type of that name was asked for describe the well-known one, by
two objects. -/
theorem published_once_any :
    ∃ x y, (create 0 {}).registry.Yields
        [.register Schema.clash.any, .describe ".google.protobuf.Any"]
        WellKnownMessage.any.name x ∧
      (create 1 {}).registry.Yields
        [.register Schema.clash.any, .describe ".google.protobuf.Any"]
        WellKnownMessage.any.name y ∧
      Schema.empty.Describes (.wellKnown .any) x.value ∧
      Schema.empty.Describes (.wellKnown .any) y.value ∧ x.handle ≠ y.handle := by
  have hids : (create 0 {}).registry.id ≠ (create 1 {}).registry.id := by
    rw [create_id, create_id]
    decide
  obtain ⟨_, _, _, _, hknown⟩ := published_once (.create 0 {}) (.create 1 {})
    [.register Schema.clash.any] [.register Schema.clash.any]
  have hany : WellKnownMessage.any ∈ WellKnownMessage.seeded := List.mem_cons_self
  obtain ⟨x, hxd, hx⟩ := (hknown 0 {}).1 .any hany
  obtain ⟨y, hyd, hy⟩ := (hknown 1 {}).1 .any hany
  have hquery : Name.normalize ".google.protobuf.Any" = WellKnownMessage.any.name := by
    decide +kernel
  rw [← hquery] at hx hy
  have hxy := yields_describe ".google.protobuf.Any" hx
  have hyy := yields_describe ".google.protobuf.Any" hy
  rw [hquery] at hxy hyy
  obtain ⟨_, _, _, happart, _⟩ := published_once (.create 0 {}) (.create 1 {})
    [.register Schema.clash.any, .describe ".google.protobuf.Any"]
    [.register Schema.clash.any, .describe ".google.protobuf.Any"]
  exact ⟨x, y, hxy, hyy, hxd, hyd, happart hids _ _ x y hxy hyy⟩

end Registry
end MessageRegistry
