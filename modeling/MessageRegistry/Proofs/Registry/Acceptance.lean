import MessageRegistry.Proofs.Registry.Reachable
import MessageRegistry.Schema.WellFormed

/-!
Which registrations succeed. Main statement: where names are distinct, a registration succeeds
exactly if its type is well formed with all it reaches, whatever was registered before.
-/
namespace MessageRegistry

namespace Registration
variable {S : Schema} {catalog : Catalog} {strict : Bool} {m : S.Message} {draft : Draft}

/-- What a walk skips is in progress, drafted or published, and none of these hides a fault. -/
theorem wellFormedFrom_of_draftMessage (hd : S.NamesDistinct) (hs : catalog.Sound S strict)
    (h : draftMessage S catalog strict m = .ok draft) : S.WellFormedFrom strict m := by
  have hf := finished_draftMessage h
  have hpublished : (catalog.publish 0 draft.messages.values draft.enums.values).Sound S strict :=
    hs.publish hf.sound hf.inProgress
  apply hpublished.wellFormedFrom hd
  exact (Catalog.contains_publish_draft hf.sound _).mpr (knows_draftMessage h)

/-- Where names are distinct, one walk decides whether a type is well formed with all it
reaches. -/
theorem wellFormedFrom_iff_draftMessage (hd : S.NamesDistinct) :
    S.WellFormedFrom strict m ↔ ∃ draft, draftMessage S .empty strict m = .ok draft := by
  constructor
  · exact draftMessage_isOk
  · rintro ⟨draft, h⟩
    exact wellFormedFrom_of_draftMessage hd .empty h

end Registration

/-- Nodes and leaves that refer to each other, and a holder of nodes that refers to a type in which
two fields share a number. -/
def Schema.tree : Schema where
  messageCount := 5
  enumCount := 1
  messages := #v[
    ⟨"t.Node", [.map "children" 1 (.declared 1), .enum "color" 2 (.declared 0),
      .message "leaf" 3 (.declared 2)], false⟩,
    ⟨"t.Node.ChildrenEntry", [.scalar "key" 1 .string, .message "value" 2 (.declared 0)], true⟩,
    ⟨"t.Leaf", [.message "owner" 1 (.declared 0), .message "seen" 2 (.wellKnown .timestamp)],
      false⟩,
    ⟨"t.Broken", [.scalar "first" 1 .bool, .scalar "second" 1 .bool], false⟩,
    ⟨"t.Holder", [.message "node" 1 (.declared 0), .message "broken" 2 (.declared 3)], false⟩]
  enums := #v[⟨"t.Color", [⟨"RED", 0⟩, ⟨"BLUE", 1⟩]⟩]

namespace Schema.tree

def node : tree.Message := .declared ⟨0, by decide⟩

def leaf : tree.Message := .declared ⟨2, by decide⟩

def holder : tree.Message := .declared ⟨4, by decide⟩

def color : tree.Enum := .declared ⟨0, by decide⟩

theorem namesDistinct : tree.NamesDistinct :=
  namesDistinct_of_declared tree (by decide +kernel) (by decide +kernel) (by decide +kernel)
    (by decide +kernel)

theorem wellFormedFrom_node : tree.WellFormedFrom true node := by
  have h : (Registration.draftMessage tree .empty true node).toOption.isSome = true := by
    decide +kernel
  cases hd : Registration.draftMessage tree .empty true node with
  | error halt => simp [hd, Except.toOption] at h
  | ok draft => exact (Registration.wellFormedFrom_iff_draftMessage namesDistinct).mpr ⟨draft, hd⟩

theorem not_wellFormedFrom_holder : ¬ tree.WellFormedFrom true holder := by
  intro hwf
  obtain ⟨draft, hd⟩ := (Registration.wellFormedFrom_iff_draftMessage namesDistinct).mp hwf
  have h : (Registration.draftMessage tree .empty true holder).toOption = none := by
    decide +kernel
  simp [hd, Except.toOption] at h

end Schema.tree

namespace Registry
variable {S : Schema} {registry : Registry} {m : S.Message}
variable {outcome : Outcome (Except Failure (Shared MessageInfo))}

theorem Registered.wellFormedFrom (h : Registered S registry m outcome) (hd : S.NamesDistinct)
    (hs : registry.catalog.Sound S registry.config.strictNames) {info : Shared MessageInfo}
    (hok : outcome.answer = .ok info) : S.WellFormedFrom registry.config.strictNames m := by
  cases h with
  | unnamed _ | rejected _ _ _ => simp at hok
  | known _ hk => exact hs.wellFormedFrom hd (Option.isSome_iff_exists.mpr ⟨_, hk⟩)
  | published _ _ hdraft _ => exact Registration.wellFormedFrom_of_draftMessage hd hs hdraft

/-- Names need not be distinct for this: what is well formed with all it reaches is not rejected. -/
theorem Registered.isOk (h : Registered S registry m outcome)
    (hwf : S.WellFormedFrom registry.config.strictNames m) : ∃ info, outcome.answer = .ok info := by
  cases h with
  | unnamed hn => exact absurd hn (hwf.1 m .refl).named
  | @known info _ _ => exact ⟨info, rfl⟩
  | rejected _ _ hdraft =>
    obtain ⟨final, hok⟩ := Registration.draftMessage_isOk hwf
    exact absurd (hdraft.symm.trans hok) (by simp)
  | @published _ info _ _ _ _ => exact ⟨info, rfl⟩

theorem register_isOk_iff (hd : S.NamesDistinct)
    (hs : registry.catalog.Sound S registry.config.strictNames) :
    (∃ info, (registry.register S m).answer = .ok info) ↔
      S.WellFormedFrom registry.config.strictNames m := by
  have h : Registered S registry m (registry.register S m) := registered_register
  constructor
  · rintro ⟨info, hok⟩
    exact h.wellFormedFrom hd hs hok
  · exact h.isOk

/-- A message type is accepted exactly if it is well formed with all it reaches, whatever a registry
has published before. -/
theorem register_isOk_iff_wellFormedFrom (hd : S.NamesDistinct) (hr : Reachable S registry) :
    (∃ info, (registry.register S m).answer = .ok info) ↔
      S.WellFormedFrom registry.config.strictNames m :=
  register_isOk_iff hd hr.sound

/-- A node is accepted, cycles and all, and a holder is not. -/
theorem register_isOk_tree :
    (∃ info, ((create 0 {}).registry.register .tree Schema.tree.node).answer = .ok info) ∧
      ¬ ∃ info, ((create 0 {}).registry.register .tree Schema.tree.holder).answer = .ok info := by
  have hstrict : (create 0 {}).registry.config.strictNames = true := by rw [create_config]
  constructor
  · apply (register_isOk_iff_wellFormedFrom Schema.tree.namesDistinct (.create 0 {})).mpr
    rw [hstrict]
    exact Schema.tree.wellFormedFrom_node
  · intro hok
    have hwf := (register_isOk_iff_wellFormedFrom Schema.tree.namesDistinct (.create 0 {})).mp hok
    rw [hstrict] at hwf
    exact Schema.tree.not_wellFormedFrom_holder hwf

end Registry
end MessageRegistry
