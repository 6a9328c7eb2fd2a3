import MessageRegistry.Proofs.Catalog.Identity
import MessageRegistry.Proofs.Registration.Order
import MessageRegistry.Proofs.Registry.Closure

/-!
The order in which a registration publishes types, as its reports tell it. Main statement: the type
that was asked for comes last, and a type comes behind those that it refers to, except for cycles:
what it refers to and does not stand before it refers back to it, directly or through others.
-/
namespace MessageRegistry

/-- The message types that are reported as published, in the order of the reports. -/
def Event.publishedTypes (events : List Event) : List String :=
  events.filterMap fun
    | .publishedType typeName => some typeName
    | _ => none

def Outcome.published {α : Type} (outcome : Outcome α) : List String :=
  Event.publishedTypes outcome.events

def Outcome.Refers {α : Type} (outcome : Outcome α) (t u : String) : Prop :=
  t ∈ outcome.published ∧ u ∈ outcome.published ∧
    ∃ shared, outcome.registry.catalog.message? t = some shared ∧ shared.value.RefersTo u

instance (info : MessageInfo) (typeName : String) : Decidable (info.RefersTo typeName) :=
  inferInstanceAs (Decidable (∃ field ∈ info.fields, _ ∧ _))

instance {α : Type} (outcome : Outcome α) (t u : String) : Decidable (outcome.Refers t u) :=
  decidable_of_iff
    (t ∈ outcome.published ∧ u ∈ outcome.published ∧
      (outcome.registry.catalog.message? t).any (·.value.RefersTo u) = true)
    (by simp [Outcome.Refers, Option.any_eq_true])

theorem Visit.mem_reports_iff {trail : List Visit} {name : String} :
    .inProgress name ∈ reports trail ↔ .revisit name ∈ trail := by
  simp only [reports, List.mem_filterMap, List.mem_reverse]
  constructor
  · rintro ⟨visit, hv, heq⟩
    cases visit <;> simp_all
  · intro hv
    exact ⟨_, hv, rfl⟩

theorem Event.publishedTypes_reports (trail : List Visit) :
    publishedTypes (Visit.reports trail) = [] := by
  obtain ⟨met, hmet⟩ := Visit.exists_reports_eq trail
  simp [hmet, publishedTypes, List.filterMap_map]

theorem Event.publishedTypes_publications (draft : Draft) :
    publishedTypes draft.publications = draft.messages.values.map (·.name) := by
  simp [publishedTypes, Draft.publications, List.filterMap_append, List.filterMap_map]

namespace Registry
variable {S : Schema} {registry : Registry} {m : S.Message} {draft : Draft} {t u : String}
variable {outcome : Outcome (Except Failure (Shared MessageInfo))} {info : Shared MessageInfo}

structure PublishesDraft (S : Schema) (registry : Registry) (m : S.Message) (draft : Draft)
    (outcome : Outcome (Except Failure (Shared MessageInfo))) : Prop where
  drafted : Registration.draftMessage S registry.catalog registry.config.strictNames m = .ok draft
  events : outcome.events = Visit.reports draft.trail ++ draft.publications
  catalog : outcome.registry.catalog = (registry.publish draft).catalog

theorem Registered.publishesDraft (h : Registered S registry m outcome)
    (hk : registry.catalog.message? (S.messageName m) = none)
    (hok : outcome.answer = .ok info) : ∃ draft, PublishesDraft S registry m draft outcome := by
  cases h with
  | unnamed _ | rejected _ _ _ => cases hok
  | known _ hknown => exact absurd (hk.symm.trans hknown) (by simp)
  | published _ _ hd _ => exact ⟨_, hd, rfl, rfl⟩

namespace PublishesDraft
variable (h : PublishesDraft S registry m draft outcome)
include h

theorem published_eq : outcome.published = draft.messages.keys := by
  have hs := (Registration.finished_draftMessage h.drafted).sound
  rw [Outcome.published, h.events, Event.publishedTypes, List.filterMap_append,
    ← Event.publishedTypes, ← Event.publishedTypes, Event.publishedTypes_reports,
    Event.publishedTypes_publications, List.nil_append, Table.keys_eq_map_values hs.keyed]

theorem mem_published_iff (name : String) :
    name ∈ outcome.published ↔
      name ∈ outcome.registry.catalog.messages.keys ∧ name ∉ registry.catalog.messages.keys := by
  have hs := (Registration.finished_draftMessage h.drafted).sound
  rw [h.published_eq, h.catalog]
  exact Catalog.mem_keys_draft_iff hs (Registration.fresh_draftMessage h.drafted) registry.id name

/-- What is published refers to other types of the draft as it did in the draft. -/
theorem refers_iff :
    outcome.Refers t u ↔ draft.Refers t u ∧ u ∈ draft.messages.keys := by
  have hs := (Registration.finished_draftMessage h.drafted).sound
  have hfresh := Registration.fresh_draftMessage h.drafted
  rw [Outcome.Refers, h.published_eq, h.catalog, publish]
  constructor
  · rintro ⟨ht, hu, shared, hm, hr⟩
    rcases Catalog.message?_publish hm with hold | ⟨hv, hn⟩
    · have hnew := hfresh.message t ((Table.contains_iff _ _).mpr ht)
      exact absurd (Option.isSome_iff_exists.mpr ⟨shared, hold⟩) hnew
    · exact ⟨⟨shared.value, hv, hn, hr⟩, hu⟩
  · rintro ⟨⟨info, hi, rfl, hr⟩, hu⟩
    obtain ⟨shared, hm, rfl⟩ := Catalog.message?_publish_of_mem_draft hs hfresh hi
    have ht := (Table.contains_iff_of_keyed hs.keyed shared.value.name).mpr ⟨_, hi, rfl⟩
    exact ⟨(Table.contains_iff _ _).mp ht, hu, shared, hm, hr⟩

theorem mem_keys_of_refers (hr : draft.Refers t u) : t ∈ draft.messages.keys := by
  have hs := (Registration.finished_draftMessage h.drafted).sound
  obtain ⟨info, hi, hn, _⟩ := hr
  exact (Table.contains_iff _ _).mp
    ((Table.contains_iff_of_keyed hs.keyed t).mpr ⟨info, hi, hn⟩)

theorem mem_keys_of_reaches (hpath : Relation.ReflTransGen draft.Refers u t)
    (ht : t ∈ draft.messages.keys) : u ∈ draft.messages.keys := by
  rcases Relation.ReflTransGen.cases_head hpath with rfl | ⟨next, hr, _⟩
  · exact ht
  · exact h.mem_keys_of_refers hr

/-- A path that ends at a drafted type leads through drafted types only. -/
theorem reaches (hpath : Relation.ReflTransGen draft.Refers u t) (ht : t ∈ draft.messages.keys) :
    Relation.ReflTransGen outcome.Refers u t := by
  induction hpath using Relation.ReflTransGen.head_induction_on with
  | refl => exact .refl
  | head hac hct ih => exact ih.head (h.refers_iff.mpr ⟨hac, h.mem_keys_of_reaches hct ht⟩)

theorem mem_events_inProgress_iff (name : String) :
    .inProgress name ∈ outcome.events ↔ .revisit name ∈ draft.trail := by
  rw [h.events, List.mem_append, Visit.mem_reports_iff]
  simp [Draft.publications]

/-- What a published type refers to is published before it, or was met while in progress. -/
theorem placed_or_inProgress (hk : registry.catalog.message? (S.messageName m) = none)
    (hr : outcome.Refers t u) :
    [u, t].Sublist outcome.published ∨
      .inProgress u ∈ outcome.events ∧ Relation.ReflTransGen outcome.Refers u t := by
  have hfresh := (Registration.fresh_draftMessage h.drafted).message
  obtain ⟨hdraft, hu⟩ := h.refers_iff.mp hr
  have hordered := (Registration.draftMessage_ordered h.drafted
    ((Table.not_contains_iff _ _).mpr hk)).2
  rw [h.published_eq, h.mem_events_inProgress_iff]
  rcases hordered.placed t u hdraft with hold | hbefore | ⟨hv, hpath⟩
  · exact absurd hold (hfresh u ((Table.contains_iff _ _).mpr hu))
  · exact Or.inl hbefore
  · exact Or.inr ⟨hv, h.reaches hpath (h.mem_keys_of_refers hdraft)⟩

theorem placed (hk : registry.catalog.message? (S.messageName m) = none)
    (hr : outcome.Refers t u) :
    [u, t].Sublist outcome.published ∨ Relation.ReflTransGen outcome.Refers u t :=
  (h.placed_or_inProgress hk hr).imp_right And.right

end PublishesDraft

/-- A registration that builds publishes its types one after the other, each once and the one that
was asked for last. A published type that does not stand behind one that it refers to is reached
from there again, so that both lie on a cycle; where there are no cycles, every type stands behind
all that it refers to. -/
theorem register_publishes_in_order
    (hk : registry.catalog.message? (S.messageName m) = none)
    (hok : (registry.register S m).answer = .ok info) :
    (registry.register S m).published.Nodup ∧
    (registry.register S m).published.getLast? = some (S.messageName m) ∧
    (∀ name, name ∈ (registry.register S m).published ↔
      name ∈ (registry.register S m).registry.catalog.messages.keys ∧
        name ∉ registry.catalog.messages.keys) ∧
    (∀ t u, (registry.register S m).Refers t u →
      ¬ [u, t].Sublist (registry.register S m).published →
      Relation.ReflTransGen (registry.register S m).Refers u t) ∧
    ((∀ t, ¬ Relation.TransGen (registry.register S m).Refers t t) →
      ∀ t u, (registry.register S m).Refers t u →
        [u, t].Sublist (registry.register S m).published) := by
  have hregistered : Registered S registry m (registry.register S m) := registered_register
  obtain ⟨draft, h⟩ := hregistered.publishesDraft hk hok
  have hlast := (Registration.draftMessage_ordered h.drafted
    ((Table.not_contains_iff _ _).mpr hk)).1
  refine ⟨?_, ?_, h.mem_published_iff, fun t u hr hn => (h.placed hk hr).resolve_left hn, ?_⟩
  · rw [h.published_eq]
    exact (Registration.fresh_draftMessage h.drafted).names
  · rw [h.published_eq, hlast]
  · intro hacyclic t u hr
    exact (h.placed hk hr).resolve_right fun hback => hacyclic t (.head' hr hback)

/-- A mode is published before the peer and the twin that refer to it, but refers to the twin, which
comes last; so the twin leads to the mode. -/
theorem register_publishes_in_order_clash :
    ((create 0 {}).registry.register .clash Schema.clash.twin).published =
      ["c.Mode", "c.Peer", "c.Twin"] ∧
    Relation.ReflTransGen
      ((create 0 {}).registry.register .clash Schema.clash.twin).Refers "c.Twin" "c.Mode" := by
  have hrun : (create 0 {}).registry.catalog.message?
        (Schema.clash.messageName Schema.clash.twin) = none ∧
      ((create 0 {}).registry.register .clash Schema.clash.twin).answer.isOk = true ∧
      ((create 0 {}).registry.register .clash Schema.clash.twin).published =
        ["c.Mode", "c.Peer", "c.Twin"] ∧
      ((create 0 {}).registry.register .clash Schema.clash.twin).Refers "c.Mode" "c.Twin" := by
    decide +kernel
  obtain ⟨hk, hisOk, hpublished, hrefers⟩ := hrun
  cases hok : ((create 0 {}).registry.register .clash Schema.clash.twin).answer with
  | error reason =>
    rw [hok] at hisOk
    cases hisOk
  | ok info =>
    obtain ⟨_, _, _, hback, _⟩ := register_publishes_in_order hk hok
    refine ⟨hpublished, hback "c.Mode" "c.Twin" hrefers ?_⟩
    rw [hpublished]
    decide

end Registry
end MessageRegistry
