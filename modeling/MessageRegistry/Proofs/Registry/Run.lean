import MessageRegistry.Proofs.Registry.Reachable

/-!
Runs, operation by operation. Main statement: each operation of a run is performed on the registry
that the operations before it lead to.
-/
namespace MessageRegistry

/-- The name of the message type that an operation asks for. -/
def Operation.typeName? {S : Schema} : Operation S → Option String
  | .register m | .registerTypeOf m => some (S.messageName m)
  | .describe name => some (Name.normalize name)
  | _ => none

def Operation.isRegistration {S : Schema} : Operation S → Bool
  | .register _ | .registerTypeOf _ | .registerEnum _ => true
  | _ => false

def Answer.isFailure : Answer → Bool
  | .failure _ => true
  | _ => false

namespace Registry
variable {S : Schema} {registry : Registry}

theorem answer_perform_register (registry : Registry) (m : S.Message) :
    (registry.perform (.register m)).answer = .ofExcept .message (registry.register S m).answer :=
  rfl

theorem perform_registerTypeOf (registry : Registry) (m : S.Message) :
    registry.perform (.registerTypeOf m) = registry.perform (.register m) := rfl

theorem answer_perform_registerEnum (registry : Registry) (e : S.Enum) :
    (registry.perform (.registerEnum e)).answer =
      .ofExcept .enum (registry.registerEnum S e).answer :=
  rfl

/-- The operations of a run, each with its outcome. -/
def transcript (registry : Registry) (operations : List (Operation S)) :
    List (Operation S × Outcome Answer) :=
  operations.zip (registry.run operations)

theorem transcript_cons (registry : Registry) (operation : Operation S)
    (operations : List (Operation S)) :
    registry.transcript (operation :: operations) =
      (operation, registry.perform operation) ::
        (registry.perform operation).registry.transcript operations := rfl

theorem after_append (registry : Registry) (operations others : List (Operation S)) :
    registry.after (operations ++ others) = (registry.after operations).after others :=
  List.foldl_append

/-- What a run reports. -/
def reports (registry : Registry) (operations : List (Operation S)) : List Event :=
  (registry.run operations).flatMap (·.events)

theorem reports_cons (registry : Registry) (operation : Operation S)
    (operations : List (Operation S)) :
    registry.reports (operation :: operations) =
      (registry.perform operation).events ++
        (registry.perform operation).registry.reports operations := rfl

theorem reports_append (registry : Registry) (operations others : List (Operation S)) :
    registry.reports (operations ++ others) =
      registry.reports operations ++ (registry.after operations).reports others := by
  induction operations generalizing registry with
  | nil => rfl
  | cons operation operations ih =>
    rw [List.cons_append, reports_cons, reports_cons, ih, after_cons, List.append_assoc]

theorem mem_transcript_iff {operations : List (Operation S)} {operation : Operation S}
    {outcome : Outcome Answer} :
    (operation, outcome) ∈ registry.transcript operations ↔
      ∃ before later, operations = before ++ operation :: later ∧
        outcome = (registry.after before).perform operation := by
  induction operations generalizing registry with
  | nil => simp [transcript]
  | cons first operations ih =>
    rw [transcript_cons, List.mem_cons, ih]
    constructor
    · rintro (hfirst | ⟨before, later, rfl, rfl⟩)
      · obtain ⟨rfl, rfl⟩ := Prod.mk.inj hfirst
        exact ⟨[], operations, rfl, rfl⟩
      · exact ⟨first :: before, later, rfl, rfl⟩
    · rintro ⟨before, later, hsplit, rfl⟩
      cases before with
      | nil =>
        obtain ⟨rfl, rfl⟩ := List.cons.inj hsplit
        exact Or.inl rfl
      | cons other before =>
        obtain ⟨rfl, rfl⟩ := List.cons.inj hsplit
        exact Or.inr ⟨before, later, rfl, rfl⟩

theorem after_config (registry : Registry) (operations : List (Operation S)) :
    (registry.after operations).config = registry.config :=
  after_induction (P := fun next => next.config = registry.config)
    (fun _ _ hstep h => hstep.config.trans h) rfl operations

theorem Reachable.after (h : Reachable S registry) (operations : List (Operation S)) :
    Reachable S (registry.after operations) := by
  induction operations generalizing registry with
  | nil => exact h
  | cons operation operations ih => exact ih (h.perform operation)

end Registry
end MessageRegistry
