import MessageRegistry.Proofs.Registry.Acceptance
import MessageRegistry.Proofs.Registry.Run

/-!
Registrations that fail. Main statement: such a registration is rejected for a fault and leaves the
registry as it was, so that a run goes the same way without it.
-/
namespace MessageRegistry

namespace Registry
variable {S : Schema} {registry : Registry} {m : S.Message} {e : S.Enum} {reason : Failure}

/-- What was drafted before the fault is dropped with the draft. -/
theorem Registered.of_error {outcome : Outcome (Except Failure (Shared MessageInfo))}
    (h : Registered S registry m outcome) (hf : outcome.answer = .error reason) :
    (∃ fault, reason = .rejected fault) ∧ outcome.registry = registry := by
  cases h with
  | known _ _ | published _ _ _ _ => cases hf
  | unnamed _ | rejected _ _ _ =>
    obtain rfl := Except.error.inj hf
    exact ⟨⟨_, rfl⟩, rfl⟩

theorem RegisteredEnum.of_error {outcome : Outcome (Except Failure (Shared EnumInfo))}
    (h : RegisteredEnum S registry e outcome) (hf : outcome.answer = .error reason) :
    (∃ fault, reason = .rejected fault) ∧ outcome.registry = registry := by
  cases h with
  | known _ | published _ _ _ => cases hf
  | rejected _ _ =>
    obtain rfl := Except.error.inj hf
    exact ⟨⟨_, rfl⟩, rfl⟩

end Registry

theorem Answer.ofExcept_eq_failure_iff {α : Type} {ok : α → Answer} {result : Except Failure α}
    {reason : Failure} (hok : ∀ a, (ok a).isFailure = false) :
    Answer.ofExcept ok result = .failure reason ↔ result = .error reason := by
  cases result with
  | error other => simp [Answer.ofExcept]
  | ok a =>
    have hne : ok a ≠ .failure reason := by
      intro h
      have ha := hok a
      rw [h] at ha
      cases ha
    simp [Answer.ofExcept, hne]

theorem Answer.isFailure_iff {answer : Answer} :
    answer.isFailure = true ↔ ∃ reason, answer = .failure reason := by
  cases answer <;> simp [Answer.isFailure]

namespace Registry
variable {S : Schema} {registry : Registry} {operation : Operation S} {reason : Failure}

theorem perform_register_of_failure {m : S.Message}
    (hf : (registry.perform (.register m)).answer = .failure reason) :
    (∃ fault, reason = .rejected fault) ∧
      (registry.perform (.register m)).registry = registry := by
  have h : Registered S registry m (registry.register S m) := registered_register
  rw [answer_perform_register, Answer.ofExcept_eq_failure_iff fun _ => rfl] at hf
  rw [perform_register]
  exact h.of_error hf

theorem perform_registerEnum_of_failure {e : S.Enum}
    (hf : (registry.perform (.registerEnum e)).answer = .failure reason) :
    (∃ fault, reason = .rejected fault) ∧
      (registry.perform (.registerEnum e)).registry = registry := by
  have h : RegisteredEnum S registry e (registry.registerEnum S e) := registeredEnum_registerEnum
  rw [answer_perform_registerEnum, Answer.ofExcept_eq_failure_iff fun _ => rfl] at hf
  rw [perform_registerEnum]
  exact h.of_error hf

theorem perform_of_failure (hr : operation.isRegistration = true)
    (hf : (registry.perform operation).answer = .failure reason) :
    (∃ fault, reason = .rejected fault) ∧ (registry.perform operation).registry = registry := by
  cases operation with
  | register m => exact perform_register_of_failure hf
  | registerTypeOf m =>
    rw [perform_registerTypeOf] at hf ⊢
    exact perform_register_of_failure hf
  | registerEnum e => exact perform_registerEnum_of_failure hf
  | describe _ | describeEnum _ | describeEnumValue _ | contains _ | size | isEmpty | typeNames
  | config => cases hr

def isFailedRegistration (step : Operation S × Outcome Answer) : Bool :=
  step.1.isRegistration && step.2.answer.isFailure

/-- The run without its failed registrations. -/
def transcriptKept (registry : Registry) (operations : List (Operation S)) :
    List (Operation S × Outcome Answer) :=
  (registry.transcript operations).filter (!isFailedRegistration ·)

theorem registry_of_isFailedRegistration
    (h : isFailedRegistration (operation, registry.perform operation) = true) :
    (registry.perform operation).registry = registry := by
  obtain ⟨hr, hf⟩ := Bool.and_eq_true_iff.mp h
  obtain ⟨reason, hreason⟩ := Answer.isFailure_iff.mp hf
  exact (perform_of_failure hr hreason).2

theorem transcriptKept_cons_of_failed {operations : List (Operation S)}
    (h : isFailedRegistration (operation, registry.perform operation) = true) :
    registry.transcriptKept (operation :: operations) = registry.transcriptKept operations := by
  rw [transcriptKept, transcript_cons, List.filter_cons_of_neg (by simpa using h),
    registry_of_isFailedRegistration h]
  rfl

theorem transcriptKept_cons_of_kept {operations : List (Operation S)}
    (h : ¬ isFailedRegistration (operation, registry.perform operation) = true) :
    registry.transcriptKept (operation :: operations) =
      (operation, registry.perform operation) ::
        (registry.perform operation).registry.transcriptKept operations := by
  rw [transcriptKept, transcript_cons, List.filter_cons_of_pos (by simpa using h)]
  rfl

/-- The operations that are left go on as if the failed registrations had not been asked for. -/
theorem transcript_transcriptKept (registry : Registry) (operations : List (Operation S)) :
    registry.transcript ((registry.transcriptKept operations).map Prod.fst) =
      registry.transcriptKept operations := by
  induction operations generalizing registry with
  | nil => rfl
  | cons operation operations ih =>
    by_cases h : isFailedRegistration (operation, registry.perform operation) = true
    · rw [transcriptKept_cons_of_failed h, ih]
    · rw [transcriptKept_cons_of_kept h, List.map_cons, transcript_cons, ih]

theorem after_transcriptKept (registry : Registry) (operations : List (Operation S)) :
    registry.after ((registry.transcriptKept operations).map Prod.fst) =
      registry.after operations := by
  induction operations generalizing registry with
  | nil => rfl
  | cons operation operations ih =>
    by_cases h : isFailedRegistration (operation, registry.perform operation) = true
    · rw [transcriptKept_cons_of_failed h, ih, after_cons, registry_of_isFailedRegistration h]
    · rw [transcriptKept_cons_of_kept h, List.map_cons, after_cons, ih, after_cons]

/-- A registration fails for a fault, whatever it had drafted by then, and the registry stays as it
was. A run loses nothing but the failed steps themselves when they are left out: the other steps
answer and report the same, and leave the same registries behind. -/
theorem failed_registration_leaves_no_trace (registry : Registry) :
    (∀ (operation : Operation S) (reason : Failure), operation.isRegistration = true →
      (registry.perform operation).answer = .failure reason →
      (∃ fault, reason = .rejected fault) ∧ (registry.perform operation).registry = registry) ∧
    ∀ operations : List (Operation S),
      registry.transcript ((registry.transcriptKept operations).map Prod.fst) =
        registry.transcriptKept operations ∧
      registry.after ((registry.transcriptKept operations).map Prod.fst) =
        registry.after operations :=
  ⟨fun _ _ hr hf => perform_of_failure hr hf, fun operations =>
    ⟨transcript_transcriptKept registry operations, after_transcriptKept registry operations⟩⟩

/-- A holder fails after nodes and leaves have been drafted, and nodes are registered afterwards as
if it had not been tried. -/
theorem failed_holder_leaves_no_trace :
    ((create 0 {}).registry.perform (.register Schema.tree.holder)).answer =
      .failure (.rejected (.inField "t.Holder" "broken" (.duplicateFieldNumber "t.Broken" 1))) ∧
    ((create 0 {}).registry.perform (.register Schema.tree.holder)).registry =
      (create 0 {}).registry ∧
    (create 0 {}).registry.after [.register Schema.tree.holder, .register Schema.tree.node] =
      (create 0 {}).registry.after [.register Schema.tree.node] := by
  have hanswer : ((create 0 {}).registry.perform (.register Schema.tree.holder)).answer =
      .failure (.rejected (.inField "t.Holder" "broken" (.duplicateFieldNumber "t.Broken" 1))) := by
    decide +kernel
  obtain ⟨hfailed, _⟩ := failed_registration_leaves_no_trace (S := Schema.tree)
    (create 0 {}).registry
  have hsame := (hfailed (.register Schema.tree.holder) _ rfl hanswer).2
  exact ⟨hanswer, hsame, by rw [after_cons, hsame]⟩

end Registry
end MessageRegistry
