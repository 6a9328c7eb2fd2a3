import MessageRegistry.Proofs.Registry.Rejection

/-!
A message type registered several times. Main statements: every further registration gives the
answer of the first, and none changes the catalog once the type is known.
-/
namespace MessageRegistry.Registry
variable {S : Schema} {registry : Registry} {m : S.Message} {info : Shared MessageInfo}

theorem register_of_unnamed (h : S.messageName m = "") :
    registry.register S m = ⟨.error (.rejected .emptyTypeName), [], registry⟩ :=
  if_pos h

theorem register_of_known (hn : S.messageName m ≠ "")
    (hk : registry.catalog.message? (S.messageName m) = some info) :
    registry.register S m = ⟨.ok info, [], registry.countHit⟩ := by
  simp [register, hn, hk]

/-- The second look at the catalog is all that a registration needs. -/
theorem registerExclusively_eq_register (hn : S.messageName m ≠ "") :
    registry.registerExclusively S m = registry.register S m := by
  cases hk : registry.catalog.message? (S.messageName m) with
  | some info =>
    rw [register_of_known hn hk]
    simp [registerExclusively, hk]
  | none => simp [register, hn, hk]

theorem Registered.named {outcome : Outcome (Except Failure (Shared MessageInfo))}
    (h : Registered S registry m outcome) (hok : outcome.answer = .ok info) :
    S.messageName m ≠ "" := by
  cases h with
  | unnamed _ => cases hok
  | known hn _ | rejected hn _ _ | published hn _ _ _ => exact hn

theorem answer_register_register :
    ((registry.register S m).registry.register S m).answer = (registry.register S m).answer := by
  have h : Registered S registry m (registry.register S m) := registered_register
  cases ha : (registry.register S m).answer with
  | error reason => rw [(h.of_error ha).2, ha]
  | ok info => rw [register_of_known (h.named ha) (h.message? ha)]

theorem catalog_register_of_known (hk : registry.catalog.message? (S.messageName m) = some info) :
    (registry.register S m).registry.catalog = registry.catalog := by
  by_cases hn : S.messageName m = ""
  · rw [register_of_unnamed hn]
  · rw [register_of_known hn hk]
    rfl

/-- A registration that changes the catalog leaves its type published. -/
theorem message?_of_catalog_register_ne
    (h : (registry.register S m).registry.catalog ≠ registry.catalog) :
    ∃ info, (registry.register S m).registry.catalog.message? (S.messageName m) = some info := by
  have hr : Registered S registry m (registry.register S m) := registered_register
  cases ha : (registry.register S m).answer with
  | error reason =>
    rw [(hr.of_error ha).2] at h
    exact absurd rfl h
  | ok info => exact ⟨info, hr.message? ha⟩

/-- The same message type registered several times. -/
def calls (m : S.Message) (count : Nat) : List (Operation S) := List.replicate count (.register m)

theorem after_calls_succ (registry : Registry) (m : S.Message) (count : Nat) :
    registry.after (calls m (count + 1)) =
      ((registry.after (calls m count)).register S m).registry := by
  rw [calls, List.replicate_succ', after_append]
  exact perform_register _ m

theorem reports_calls_succ (registry : Registry) (m : S.Message) (count : Nat) :
    registry.reports (calls m (count + 1)) =
      registry.reports (calls m count) ++
        ((registry.after (calls m count)).register S m).events := by
  rw [calls, List.replicate_succ', reports_append]
  exact congrArg _ (List.append_nil _)

/-- Every further registration of a type gives the first one's answer. -/
theorem answer_register_after_calls (registry : Registry) (m : S.Message) (count : Nat) :
    ((registry.after (calls m count)).register S m).answer = (registry.register S m).answer := by
  induction count with
  | zero => rfl
  | succ count ih => rw [after_calls_succ, answer_register_register, ih]

theorem answers_run_calls (registry : Registry) (m : S.Message) (count : Nat) :
    (registry.run (calls m count)).map (·.answer) =
      List.replicate count (.ofExcept .message (registry.register S m).answer) := by
  induction count generalizing registry with
  | zero => rfl
  | succ count ih =>
    have hfirst : (registry.perform (.register m : Operation S)).registry =
        (registry.register S m).registry := perform_register registry m
    rw [calls, List.replicate_succ, run, List.map_cons, List.replicate_succ]
    simp only [answer_perform_register, hfirst]
    rw [← calls, ih, answer_register_register]

end MessageRegistry.Registry
