import MessageRegistry.Proofs.Catalog.Identity
import MessageRegistry.Proofs.General
import MessageRegistry.Proofs.Registry.Reachable

/-!
The count of registrations. Main statement: a registry has counted as many registrations as it
describes message types, up to the largest count there is.
-/
namespace MessageRegistry

theorem Stats.saturate_add_saturate (count added : Nat) :
    saturate (saturate count + added) = saturate (count + added) := by
  by_cases h : count < UInt64.size
  · have hkept : saturate count = count := if_pos h
    rw [hkept]
  · -- a count at the maximum stays there
    have hmax : saturate count = UInt64.size - 1 := if_neg h
    have hsum : saturate (count + added) = UInt64.size - 1 := if_neg (by omega)
    rw [hmax, hsum]
    unfold saturate
    split <;> omega

namespace Catalog

/-- New names add to the size of a table, each of them once. -/
theorem Publishes.size_foldl {α : Type} {step : Catalog → α → Catalog}
    {table : Catalog → Table String (Shared α)} {name : α → String}
    (h : Publishes step table name) {infos : List α} {catalog : Catalog}
    (hd : (infos.map name).Nodup)
    (hn : ∀ info ∈ infos, ¬ (table catalog).contains (name info) = true) :
    (table (infos.foldl step catalog)).size = (table catalog).size + infos.length := by
  induction infos generalizing catalog with
  | nil => rfl
  | cons info infos ih =>
    obtain ⟨hinfo, hinfos⟩ := List.nodup_cons.mp hd
    obtain ⟨hnew, hrest⟩ := List.forall_mem_cons.mp hn
    obtain ⟨handle, hi⟩ := h catalog info
    have hnext : ∀ other ∈ infos, ¬ (table (step catalog info)).contains (name other) = true := by
      intro other ho
      rw [hi, Table.contains_insert, Bool.or_eq_true, decide_eq_true_eq]
      rintro (heq | hold)
      · exact hinfo (List.mem_map.mpr ⟨other, ho, heq.symm⟩)
      · exact hrest other ho hold
    rw [List.foldl_cons, ih hinfos hnext, hi, Table.size_insert, if_neg hnew, List.length_cons]
    omega

theorem size_publish_draft {S : Schema} {strict : Bool} {owner : Nat} {catalog : Catalog}
    {draft : Draft} (hs : draft.Sound S catalog strict) (hf : draft.Fresh catalog) :
    (catalog.publish owner draft.messages.values draft.enums.values).messages.size =
      catalog.messages.size + draft.messages.size := by
  have hnames : (draft.messages.values.map MessageInfo.name).Nodup := by
    rw [← Table.keys_eq_map_values hs.keyed]
    exact hf.names
  have hnew : ∀ info ∈ draft.messages.values, ¬ catalog.messages.contains info.name = true := by
    intro info hi
    apply hf.message
    exact (Table.contains_iff_of_keyed hs.keyed info.name).mpr ⟨info, hi, rfl⟩
  rw [publish, messages_foldl_publishEnum, publishes_publishMessage.size_foldl hnames hnew]
  simp [Table.values, Table.size]

end Catalog

namespace Registry
variable {S : Schema} {registry next : Registry}

/-- Each described message type is counted once. -/
structure Counted (registry : Registry) : Prop where
  names : registry.catalog.messages.keys.Nodup
  registrations : registry.stats.registrations = Stats.saturate registry.catalog.messages.size

theorem Counted.publish {draft : Draft} {strict : Bool} (h : registry.Counted)
    (hs : draft.Sound S registry.catalog strict) (hf : draft.Fresh registry.catalog) :
    (registry.publish draft).catalog.messages.keys.Nodup ∧
      Stats.saturate (registry.stats.registrations + draft.messages.size) =
        Stats.saturate (registry.publish draft).catalog.messages.size := by
  constructor
  · rw [Registry.publish, Catalog.publish, Catalog.messages_foldl_publishEnum]
    exact Catalog.publishes_publishMessage.nodup_keys_foldl h.names
  · rw [h.registrations, Stats.saturate_add_saturate, Registry.publish,
      Catalog.size_publish_draft hs hf]

theorem Step.counted (h : Step S registry next) (hc : registry.Counted) : next.Counted := by
  cases h with
  | count heq => exact ⟨hc.names, heq.trans hc.registrations⟩
  | publish hf fresh =>
    obtain ⟨hnames, hcount⟩ := hc.publish hf.sound fresh
    exact ⟨hnames, hcount⟩
  | @publishEnums draft hf fresh hm =>
    obtain ⟨hnames, _⟩ := hc.publish hf.sound fresh
    have hsize : (registry.publish draft).catalog.messages.size =
        registry.catalog.messages.size := by
      rw [Registry.publish, Catalog.size_publish_draft hf.sound fresh, hm]
      rfl
    exact ⟨hnames, hc.registrations.trans (congrArg Stats.saturate hsize.symm)⟩

theorem Reachable.counted (h : Reachable S registry) : registry.Counted :=
  h.induction (P := Counted) (fun _ _ => ⟨List.nodup_nil, rfl⟩) fun _ _ hstep hc => hstep.counted hc

end Registry
end MessageRegistry
