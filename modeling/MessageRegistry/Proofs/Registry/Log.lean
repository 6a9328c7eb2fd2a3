import MessageRegistry.Proofs.General
import MessageRegistry.Proofs.Registry.Count
import MessageRegistry.Proofs.Registry.Run

/-!
The log of publications. Each published type is reported by a line of its own. Main statement: what
a registry reports, from its creation on, names every published type once and no other.
-/
namespace MessageRegistry

theorem Outcome.events_andThen {α β : Type} (outcome : Outcome α)
    (next : α → Registry → Outcome β) :
    (outcome.andThen next).events =
      outcome.events ++ (next outcome.answer outcome.registry).events := rfl

namespace Event

/-- No other event reads like the publication of a message type. -/
theorem text_eq_publishedType_iff (event : Event) (name : String) :
    event.text = "DEBUG [TypeRegistry::publish] type " ++ name ↔ event = publishedType name := by
  rw [← String.toList_inj]
  unfold text message level Level.text
  cases event <;> simp [String.toList_inj]

theorem text_eq_publishedEnum_iff (event : Event) (name : String) :
    event.text = "DEBUG [TypeRegistry::publish] enum " ++ name ↔ event = publishedEnum name := by
  rw [← String.toList_inj]
  unfold text message level Level.text
  cases event <;> simp [String.toList_inj]

theorem count_text {line : String} {published : Event}
    (h : ∀ event : Event, event.text = line ↔ event = published) (events : List Event) :
    (events.map text).count line = events.count published := by
  rw [List.count, List.count, List.countP_map]
  apply List.countP_congr
  intro event _
  simpa using h event

end Event

namespace Draft
variable {S : Schema} {catalog : Catalog} {strict : Bool} {draft : Draft}

theorem count_publishedType (hs : draft.Sound S catalog strict) (hf : draft.Fresh catalog)
    (name : String) :
    draft.publications.count (.publishedType name) = (draft.messages.contains name).toNat := by
  have hother : (draft.enums.values.map fun info => Event.publishedEnum info.name).count
      (.publishedType name) = 0 := by
    simp [List.count_eq_zero]
  rw [publications, List.count_append, hother, Nat.add_zero,
    Table.count_map_values (fun _ _ => Event.publishedType.inj) hs.keyed hf.names]

theorem count_publishedEnum (hs : draft.Sound S catalog strict) (hf : draft.Fresh catalog)
    (name : String) :
    draft.publications.count (.publishedEnum name) = (draft.enums.contains name).toNat := by
  have hother : (draft.messages.values.map fun info => Event.publishedType info.name).count
      (.publishedEnum name) = 0 := by
    simp [List.count_eq_zero]
  rw [publications, List.count_append, hother, Nat.zero_add,
    Table.count_map_values (fun _ _ => Event.publishedEnum.inj) hs.enumKeyed hf.enumNames]

end Draft

namespace Catalog

/-- Between two catalogs, the reports name what was published, each name once. -/
structure Logged (before : Catalog) (events : List Event) (after : Catalog) : Prop where
  message : ∀ name, (after.messages.contains name).toNat =
    (before.messages.contains name).toNat + events.count (.publishedType name)
  enum : ∀ name, (after.enums.contains name).toNat =
    (before.enums.contains name).toNat + events.count (.publishedEnum name)

namespace Logged
variable {before middle after : Catalog} {events others : List Event}

/-- Publications are the only reports of their level. -/
theorem of_level_ne (h : ∀ event ∈ events, event.level ≠ .debug) (catalog : Catalog) :
    Logged catalog events catalog := by
  have hmessage : ∀ name, events.count (.publishedType name) = 0 :=
    fun name => List.count_eq_zero.mpr fun hm => h _ hm rfl
  have henum : ∀ name, events.count (.publishedEnum name) = 0 :=
    fun name => List.count_eq_zero.mpr fun hm => h _ hm rfl
  constructor
  · intro name
    rw [hmessage, Nat.add_zero]
  · intro name
    rw [henum, Nat.add_zero]

theorem refl (catalog : Catalog) : Logged catalog [] catalog := of_level_ne (by simp) catalog

/-- The trail of a walk reports types in progress only. -/
theorem reports (trail : List Visit) (catalog : Catalog) :
    Logged catalog (Visit.reports trail) catalog := by
  obtain ⟨met, hmet⟩ := Visit.exists_reports_eq trail
  exact of_level_ne (by simp [hmet, Event.level]) catalog

theorem trans (h : Logged before events middle) (g : Logged middle others after) :
    Logged before (events ++ others) after := by
  constructor
  · intro name
    rw [g.message, h.message, List.count_append, Nat.add_assoc]
  · intro name
    rw [g.enum, h.enum, List.count_append, Nat.add_assoc]

/-- Where nothing was published at first, each published type has one line in the log. -/
theorem count_typeLine (h : Logged .empty events after) (name : String) :
    (events.map Event.text).count ("DEBUG [TypeRegistry::publish] type " ++ name) =
      if name ∈ after.messages.keys then 1 else 0 := by
  have hcount := h.message name
  have hnone : Catalog.empty.messages.contains name = false := rfl
  rw [hnone, Bool.toNat_false, Nat.zero_add, Table.toNat_contains] at hcount
  rw [Event.count_text (Event.text_eq_publishedType_iff · name), hcount]

theorem count_enumLine (h : Logged .empty events after) (name : String) :
    (events.map Event.text).count ("DEBUG [TypeRegistry::publish] enum " ++ name) =
      if name ∈ after.enums.keys then 1 else 0 := by
  have hcount := h.enum name
  have hnone : Catalog.empty.enums.contains name = false := rfl
  rw [hnone, Bool.toNat_false, Nat.zero_add, Table.toNat_contains] at hcount
  rw [Event.count_text (Event.text_eq_publishedEnum_iff · name), hcount]

end Logged

variable {S : Schema} {catalog : Catalog} {strict : Bool} {draft : Draft} {owner : Nat}

/-- A fresh draft reports what it publishes. -/
theorem logged_publish_draft (hs : draft.Sound S catalog strict) (hf : draft.Fresh catalog) :
    Logged catalog draft.publications
      (catalog.publish owner draft.messages.values draft.enums.values) := by
  constructor
  · intro name
    rw [Draft.count_publishedType hs hf]
    exact toNat_eq_add_of_or (contains_publish_draft hs name) (hf.message name)
  · intro name
    rw [Draft.count_publishedEnum hs hf]
    exact toNat_eq_add_of_or (contains_enums_publish_draft hs name) (hf.enum name)

end Catalog

namespace Registry
variable {S : Schema} {registry : Registry} {m : S.Message} {e : S.Enum}

theorem Registered.logged {outcome : Outcome (Except Failure (Shared MessageInfo))}
    (h : Registered S registry m outcome) :
    registry.catalog.Logged outcome.events outcome.registry.catalog := by
  cases h with
  | unnamed _ | known _ _ => exact .refl _
  | rejected _ _ _ =>
    exact (Catalog.Logged.reports _ _).trans (.of_level_ne (by simp [Event.level]) _)
  | published _ _ hd _ =>
    exact (Catalog.Logged.reports _ _).trans (Catalog.logged_publish_draft
      (Registration.finished_draftMessage hd).sound (Registration.fresh_draftMessage hd))

theorem RegisteredEnum.logged {outcome : Outcome (Except Failure (Shared EnumInfo))}
    (h : RegisteredEnum S registry e outcome) :
    registry.catalog.Logged outcome.events outcome.registry.catalog := by
  cases h with
  | known _ => exact .refl _
  | rejected _ _ => exact .of_level_ne (by simp [Event.level]) _
  | published hk hd _ =>
    exact Catalog.logged_publish_draft (Registration.finished_stageEnum hd).sound
      (Registration.fresh_stageEnum hk hd)

theorem logged_perform (registry : Registry) (operation : Operation S) :
    registry.catalog.Logged (registry.perform operation).events
      (registry.perform operation).registry.catalog := by
  cases operation with
  | register m | registerTypeOf m =>
    have h : Registered S registry m (registry.register S m) := registered_register
    exact h.logged
  | registerEnum e =>
    have h : RegisteredEnum S registry e (registry.registerEnum S e) := registeredEnum_registerEnum
    exact h.logged
  | describe name =>
    change registry.catalog.Logged (registry.describe name).events
      (registry.describe name).registry.catalog
    unfold Registry.describe
    split <;> exact .refl _
  | describeEnum _ | describeEnumValue _ | contains _ | size | isEmpty | typeNames | config =>
    exact .refl _

theorem logged_after (registry : Registry) (operations : List (Operation S)) :
    registry.catalog.Logged (registry.reports operations) (registry.after operations).catalog := by
  induction operations generalizing registry with
  | nil => exact .refl _
  | cons operation operations ih =>
    rw [reports_cons, after_cons]
    exact (logged_perform registry operation).trans (ih _)

theorem logged_seedReports {α : Type} (name : String) (answer : Except Failure α)
    (catalog : Catalog) : catalog.Logged (seedReports name answer) catalog := by
  cases answer <;> exact .of_level_ne (by simp [seedReports, Event.level]) catalog

theorem logged_seedEnum (registry : Registry) :
    registry.catalog.Logged registry.seedEnum.events registry.seedEnum.registry.catalog := by
  have h : RegisteredEnum .empty registry .nullValue (registry.registerEnum .empty .nullValue) :=
    registeredEnum_registerEnum
  exact h.logged.trans (logged_seedReports _ _ _)

theorem logged_seedMessage (registry : Registry) (message : WellKnownMessage) :
    registry.catalog.Logged (registry.seedMessage message).events
      (registry.seedMessage message).registry.catalog := by
  have h : Registered .empty registry (.wellKnown message)
      (registry.register .empty (.wellKnown message)) := registered_register
  exact h.logged.trans (logged_seedReports _ _ _)

theorem logged_seedMessages (registry : Registry) (messages : List WellKnownMessage) :
    registry.catalog.Logged (registry.seedMessages messages).events
      (registry.seedMessages messages).registry.catalog := by
  induction messages generalizing registry with
  | nil => exact .refl _
  | cons message messages ih => exact (logged_seedMessage registry message).trans (ih _)

/-- A new registry has reported the well-known types. -/
theorem logged_create (id : Nat) (config : Config) :
    Catalog.empty.Logged (create id config).events (create id config).registry.catalog := by
  have hseedEnum := logged_seedEnum (bare id config)
  rw [create, Outcome.events_andThen, Outcome.registry_andThen]
  exact hseedEnum.trans (logged_seedMessages (bare id config).seedEnum.registry
    WellKnownMessage.seeded)

end Registry
end MessageRegistry
