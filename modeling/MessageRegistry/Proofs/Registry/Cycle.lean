import MessageRegistry.Proofs.General
import MessageRegistry.Proofs.Registry.PublicationOrder

/-!
Which cycles a registration reports. A type is reported in progress where a path of references comes
back to it, and a cycle cannot go from each of its types to one that is published earlier. Main
statement: the reported types lie on cycles, and every cycle goes through a reported type.
-/
namespace MessageRegistry

namespace Registry
variable {S : Schema} {registry : Registry} {m : S.Message} {draft : Draft} {name : String}
variable {outcome : Outcome (Except Failure (Shared MessageInfo))} {info : Shared MessageInfo}

namespace PublishesDraft
variable (h : PublishesDraft S registry m draft outcome)
  (hk : registry.catalog.message? (S.messageName m) = none)
include h hk

/-- What is met while in progress leads to itself, through types that are published with it. -/
theorem circular (hv : .inProgress name ∈ outcome.events) :
    Relation.TransGen outcome.Refers name name := by
  have hordered := (Registration.draftMessage_ordered h.drafted
    ((Table.not_contains_iff _ _).mpr hk)).2
  have hcircular := hordered.circular name ((h.mem_events_inProgress_iff name).mp hv)
  obtain ⟨next, hnext, hpath⟩ := Relation.TransGen.head'_iff.mp hcircular
  have hname := h.mem_keys_of_refers hnext
  exact .head' (h.refers_iff.mpr ⟨hnext, h.mem_keys_of_reaches hpath hname⟩)
    (h.reaches hpath hname)

theorem exists_inProgress {cycle : Cycle String} (hc : cycle ≠ .nil)
    (hchain : cycle.Chain outcome.Refers) : ∃ u ∈ cycle, .inProgress u ∈ outcome.events := by
  obtain ⟨t, _, u, hu, hr, hrank⟩ := exists_rank_le hc hchain outcome.published.idxOf
  refine ⟨u, hu, ((h.placed_or_inProgress hk hr).resolve_left fun hbefore => ?_).1⟩
  have hnodup : outcome.published.Nodup := by
    rw [h.published_eq]
    exact (Registration.fresh_draftMessage h.drafted).names
  exact absurd (idxOf_lt_of_sublist hnodup hbefore) (not_lt.mpr hrank)

end PublishesDraft

/-- A registration that builds reports types in progress exactly if there are cycles among the types
that it publishes. The reported types lie on cycles, and each cycle has one of them. -/
theorem register_reports_cycles
    (hk : registry.catalog.message? (S.messageName m) = none)
    (hok : (registry.register S m).answer = .ok info) :
    ((∃ name, .inProgress name ∈ (registry.register S m).events) ↔
      ∃ cycle : Cycle String, cycle ≠ .nil ∧ cycle.Chain (registry.register S m).Refers) ∧
    (∀ name, .inProgress name ∈ (registry.register S m).events →
      ∃ cycle : Cycle String, cycle.Nodup ∧ name ∈ cycle ∧
        cycle.Chain (registry.register S m).Refers) ∧
    ∀ cycle : Cycle String, cycle ≠ .nil → cycle.Chain (registry.register S m).Refers →
      ∃ name ∈ cycle, .inProgress name ∈ (registry.register S m).events := by
  have hregistered : Registered S registry m (registry.register S m) := registered_register
  obtain ⟨draft, h⟩ := hregistered.publishesDraft hk hok
  refine ⟨⟨?_, ?_⟩, fun name hv => exists_nodup_cycle (h.circular hk hv),
    fun cycle hc hchain => h.exists_inProgress hk hc hchain⟩
  · rintro ⟨name, hv⟩
    obtain ⟨cycle, _, hname, hchain⟩ := exists_nodup_cycle (h.circular hk hv)
    refine ⟨cycle, ?_, hchain⟩
    rintro rfl
    exact Cycle.notMem_nil name hname
  · rintro ⟨cycle, hc, hchain⟩
    obtain ⟨name, _, hv⟩ := h.exists_inProgress hk hc hchain
    exact ⟨name, hv⟩

theorem register_reports_cycles_clash :
    .inProgress "c.Twin" ∈ ((create 0 {}).registry.register .clash Schema.clash.twin).events ∧
    (∃ cycle : Cycle String, cycle.Nodup ∧ "c.Twin" ∈ cycle ∧
      cycle.Chain ((create 0 {}).registry.register .clash Schema.clash.twin).Refers) ∧
    ∃ name ∈ ((["c.Peer", "c.Mode", "c.Twin"] : List String) : Cycle String),
      .inProgress name ∈
        ((create 0 {}).registry.register .clash Schema.clash.twin).events := by
  have hrun : (create 0 {}).registry.catalog.message?
        (Schema.clash.messageName Schema.clash.twin) = none ∧
      ((create 0 {}).registry.register .clash Schema.clash.twin).answer.isOk = true ∧
      .inProgress "c.Twin" ∈
        ((create 0 {}).registry.register .clash Schema.clash.twin).events ∧
      ["c.Peer", "c.Mode", "c.Twin", "c.Peer"].IsChain
        ((create 0 {}).registry.register .clash Schema.clash.twin).Refers := by
    decide +kernel
  obtain ⟨hk, hisOk, hreport, hchain⟩ := hrun
  cases hok : ((create 0 {}).registry.register .clash Schema.clash.twin).answer with
  | error reason =>
    rw [hok] at hisOk
    cases hisOk
  | ok info =>
    obtain ⟨_, hon, hthrough⟩ := register_reports_cycles hk hok
    have hcycle : ((["c.Peer", "c.Mode", "c.Twin"] : List String) : Cycle String).Chain
        ((create 0 {}).registry.register .clash Schema.clash.twin).Refers :=
      (Cycle.chain_coe_cons _ _ _).mpr hchain
    exact ⟨hreport, hon "c.Twin" hreport, hthrough _ (by simp) hcycle⟩

end Registry
end MessageRegistry
