import MessageRegistry.Proofs.Catalog.Identity
import MessageRegistry.Proofs.Registry.Acceptance
import MessageRegistry.Proofs.Registry.Run

/-!
What a registration reports. Main statement: one that fails reports the types that it met while in
progress and then one warning, unless it is refused for want of a name; one that publishes reports
such types and then each new type and each new enum; and one that finds its type known reports
nothing.
-/
namespace MessageRegistry

namespace Operation
variable {S : Schema}

/-- How the warning of a failed registration reads. A message type without a name is refused before
anything is reported. -/
def warning? (fault : Fault) : Operation S → Option String
  | register m | registerTypeOf m =>
    if S.messageName m = "" then none
    else some
      ("WARN [TypeRegistry::register] " ++ S.messageName m ++ " rejected: " ++ fault.message)
  | registerEnum e =>
    some ("WARN [TypeRegistry::register_enum] " ++ S.enumName e ++ " rejected: " ++ fault.message)
  | _ => none

def IsKnown (catalog : Catalog) : Operation S → Prop
  | register m | registerTypeOf m => S.messageName m ∈ catalog.messages.keys
  | registerEnum e => S.enumName e ∈ catalog.enums.keys
  | _ => False

end Operation

namespace Event

/-- Types met while in progress, and then one warning. -/
def Warn (line : String) (events : List Event) : Prop :=
  ∃ (met : List String) (warning : Event), events = met.map .inProgress ++ [warning] ∧
    warning.level = .warn ∧ warning.text = line

/-- Types met while in progress, and then whatever is new in a catalog: first the message types and
then the enums, each once. -/
def Announce (before after : Catalog) (events : List Event) : Prop :=
  ∃ met types enums : List String,
    events = met.map .inProgress ++ types.map .publishedType ++ enums.map .publishedEnum ∧
    types.Nodup ∧ enums.Nodup ∧
    (∀ name, name ∈ types ↔ name ∈ after.messages.keys ∧ name ∉ before.messages.keys) ∧
    ∀ name, name ∈ enums ↔ name ∈ after.enums.keys ∧ name ∉ before.enums.keys

theorem text_rejectedType (name : String) (fault : Fault) :
    (rejectedType name fault).text =
      "WARN [TypeRegistry::register] " ++ name ++ " rejected: " ++ fault.message := by
  have hcall : "WARN" ++ " " ++ "[TypeRegistry::register] " = "WARN [TypeRegistry::register] " := by
    simp only [String.reduceAppend]
  unfold text message level Level.text
  simp only [← hcall, String.append_assoc]

theorem text_rejectedEnum (name : String) (fault : Fault) :
    (rejectedEnum name fault).text =
      "WARN [TypeRegistry::register_enum] " ++ name ++ " rejected: " ++ fault.message := by
  have hcall : "WARN" ++ " " ++ "[TypeRegistry::register_enum] " =
      "WARN [TypeRegistry::register_enum] " := by simp only [String.reduceAppend]
  unfold text message level Level.text
  simp only [← hcall, String.append_assoc]

theorem warn_reports {line : String} {warning : Event} (trail : List Visit)
    (hlevel : warning.level = .warn) (htext : warning.text = line) :
    Warn line (Visit.reports trail ++ [warning]) := by
  obtain ⟨met, hmet⟩ := Visit.exists_reports_eq trail
  exact ⟨met, warning, by rw [hmet], hlevel, htext⟩

theorem announce_publications {S : Schema} {catalog : Catalog} {strict : Bool} {draft : Draft}
    (hs : draft.Sound S catalog strict) (hf : draft.Fresh catalog) (owner : Nat)
    (trail : List Visit) :
    Announce catalog (catalog.publish owner draft.messages.values draft.enums.values)
      (Visit.reports trail ++ draft.publications) := by
  obtain ⟨met, hmet⟩ := Visit.exists_reports_eq trail
  refine ⟨met, draft.messages.keys, draft.enums.keys, ?_, hf.names, hf.enumNames,
    Catalog.mem_keys_draft_iff hs hf owner, Catalog.mem_enum_keys_draft_iff hs hf owner⟩
  rw [hmet, Draft.publications, Table.keys_eq_map_values hs.keyed,
    Table.keys_eq_map_values hs.enumKeyed, List.map_map, List.map_map, List.append_assoc]
  rfl

end Event

structure Operation.Reports {S : Schema} (operation : Operation S) (registry : Registry)
    (outcome : Outcome Answer) : Prop where
  failed : ∀ reason, outcome.answer = .failure reason → ∃ fault, reason = .rejected fault ∧
    (operation.warning? fault = none → outcome.events = []) ∧
    ∀ line, operation.warning? fault = some line → Event.Warn line outcome.events
  known : outcome.answer.isFailure = false → operation.IsKnown registry.catalog →
    outcome.events = []
  published : outcome.answer.isFailure = false → ¬ operation.IsKnown registry.catalog →
    Event.Announce registry.catalog outcome.registry.catalog outcome.events

namespace Operation.Reports
variable {S : Schema} {operation : Operation S} {registry : Registry} {outcome : Outcome Answer}

theorem of_failure {fault : Fault} (ha : outcome.answer = .failure (.rejected fault))
    (hsilent : operation.warning? fault = none → outcome.events = [])
    (hwarn : ∀ line, operation.warning? fault = some line → Event.Warn line outcome.events) :
    operation.Reports registry outcome := by
  have hfailed : outcome.answer.isFailure = true := by
    rw [ha]
    rfl
  constructor
  · intro reason hr
    obtain rfl := Answer.failure.inj (ha.symm.trans hr)
    exact ⟨fault, rfl, hsilent, hwarn⟩
  · intro hok
    simp [hfailed] at hok
  · intro hok
    simp [hfailed] at hok

theorem of_known (ha : outcome.answer.isFailure = false) (hk : operation.IsKnown registry.catalog)
    (he : outcome.events = []) : operation.Reports registry outcome := by
  refine ⟨fun reason hr => ?_, fun _ _ => he, fun _ hn => absurd hk hn⟩
  rw [hr] at ha
  cases ha

theorem of_published (ha : outcome.answer.isFailure = false)
    (hn : ¬ operation.IsKnown registry.catalog)
    (he : Event.Announce registry.catalog outcome.registry.catalog outcome.events) :
    operation.Reports registry outcome := by
  refine ⟨fun reason hr => ?_, fun _ hk => absurd hk hn, fun _ _ => he⟩
  rw [hr] at ha
  cases ha

end Operation.Reports

namespace Registry
variable {S : Schema} {registry : Registry} {m : S.Message} {e : S.Enum}

theorem Registered.reports {outcome : Outcome (Except Failure (Shared MessageInfo))}
    (h : Registered S registry m outcome) :
    (Operation.register m).Reports registry (outcome.map (.ofExcept .message)) := by
  cases h with
  | unnamed hn =>
    apply Operation.Reports.of_failure rfl (fun _ => rfl)
    intro line hl
    simp [Operation.warning?, hn] at hl
  | @rejected fault trail hn _ _ =>
    apply Operation.Reports.of_failure rfl
    · intro hl
      simp [Operation.warning?, hn] at hl
    · intro line hl
      obtain rfl : _ = line := by simpa [Operation.warning?, hn] using hl
      exact Event.warn_reports trail rfl (Event.text_rejectedType _ _)
  | known _ hk =>
    exact .of_known rfl ((Table.contains_iff _ _).mp (Option.isSome_iff_exists.mpr ⟨_, hk⟩)) rfl
  | @published draft info _ hk hd _ =>
    have hnew : S.messageName m ∉ registry.catalog.messages.keys := by
      rw [← Table.contains_iff]
      exact (Table.not_contains_iff _ _).mpr hk
    exact .of_published rfl hnew (Event.announce_publications
      (Registration.finished_draftMessage hd).sound (Registration.fresh_draftMessage hd) _ _)

theorem RegisteredEnum.reports {outcome : Outcome (Except Failure (Shared EnumInfo))}
    (h : RegisteredEnum S registry e outcome) :
    (Operation.registerEnum e).Reports registry (outcome.map (.ofExcept .enum)) := by
  cases h with
  | rejected _ _ =>
    apply Operation.Reports.of_failure rfl
    · intro hl
      cases hl
    · intro line hl
      obtain rfl := Option.some.inj hl
      exact Event.warn_reports [] rfl (Event.text_rejectedEnum _ _)
  | known hk =>
    exact .of_known rfl ((Table.contains_iff _ _).mp (Option.isSome_iff_exists.mpr ⟨_, hk⟩)) rfl
  | @published described info hk hd _ =>
    have hnew : S.enumName e ∉ registry.catalog.enums.keys := by
      rw [← Table.contains_iff]
      exact (Table.not_contains_iff _ _).mpr hk
    exact .of_published rfl hnew (Event.announce_publications
      (Registration.finished_stageEnum hd).sound (Registration.fresh_stageEnum hk hd) _ [])

/-- Every failed registration is reported by one warning, but for that of a message type without a
name. -/
theorem registrations_report (registry : Registry) {operation : Operation S}
    (hr : operation.isRegistration = true) :
    operation.Reports registry (registry.perform operation) := by
  cases operation with
  | register m =>
    have h : Registered S registry m (registry.register S m) := registered_register
    exact h.reports
  | registerTypeOf m =>
    have h : Registered S registry m (registry.register S m) := registered_register
    exact ⟨h.reports.failed, h.reports.known, h.reports.published⟩
  | registerEnum e =>
    have h : RegisteredEnum S registry e (registry.registerEnum S e) := registeredEnum_registerEnum
    exact h.reports
  | describe _ | describeEnum _ | describeEnumValue _ | contains _ | size | isEmpty | typeNames
  | config => cases hr

theorem registrations_report_holder :
    Event.Warn ("WARN [TypeRegistry::register] t.Holder rejected: t.Holder.broken: " ++
        "duplicate field number 1 in t.Broken")
      ((create 0 {}).registry.perform (.register Schema.tree.holder)).events := by
  have hanswer : ((create 0 {}).registry.perform (.register Schema.tree.holder)).answer =
      .failure (.rejected (.inField "t.Holder" "broken" (.duplicateFieldNumber "t.Broken" 1))) := by
    decide +kernel
  have hreports : (Operation.register Schema.tree.holder).Reports (create 0 {}).registry
      ((create 0 {}).registry.perform (.register Schema.tree.holder)) :=
    registrations_report (create 0 {}).registry rfl
  obtain ⟨fault, hfault, _, hwarn⟩ := hreports.failed _ hanswer
  obtain rfl := Failure.rejected.inj hfault
  apply hwarn
  decide +kernel

end Registry

/-- A message type and an enum without names. -/
def Schema.unnamed : Schema where
  messageCount := 1
  enumCount := 1
  messages := #v[⟨"", [], false⟩]
  enums := #v[⟨"", []⟩]

namespace Schema.unnamed

def record : unnamed.Message := .declared ⟨0, by decide⟩

def mode : unnamed.Enum := .declared ⟨0, by decide⟩

end Schema.unnamed

namespace Registry

/-- A message type without a name is refused in silence, an enum without a name is not. -/
theorem rejection_of_unnamed_is_silent :
    ((create 0 {}).registry.perform (.register Schema.unnamed.record)).answer =
      .failure (.rejected .emptyTypeName) ∧
    (∀ event ∈ ((create 0 {}).registry.perform (.register Schema.unnamed.record)).events,
      event.level ≠ .warn) ∧
    ((create 0 {}).registry.perform (.registerEnum Schema.unnamed.mode)).answer =
      .failure (.rejected (.invalidEnum "")) ∧
    ((create 0 {}).registry.perform (.registerEnum Schema.unnamed.mode)).events.map Event.text =
      ["WARN [TypeRegistry::register_enum]  rejected: invalid enum descriptor ''"] := by
  decide +kernel

end Registry
end MessageRegistry
