import MessageRegistry.Proofs.Registry.Acceptance

/-!
What a registration publishes. Main statement: where names are distinct, a registration that
succeeds publishes the types that its type reaches, and nothing else.
-/
namespace MessageRegistry

namespace Registration
variable {S : Schema} {catalog : Catalog} {strict : Bool} {m : S.Message} {draft : Draft}

theorem reaches_of_knows (h : draftMessage S catalog strict m = .ok draft) {name : String}
    (hk : draft.Knows catalog name) :
    catalog.messages.contains name = true ∨ ∃ t, S.Reaches m t ∧ S.messageName t = name := by
  rw [← Draft.knows_empty]
  exact (walk_gains h .refl).knows hk

theorem reachesEnum_of_knowsEnum (h : draftMessage S catalog strict m = .ok draft) {name : String}
    (hk : draft.KnowsEnum catalog name) :
    catalog.enums.contains name = true ∨ ∃ e, S.ReachesEnum m e ∧ S.enumName e = name := by
  rw [← Draft.knowsEnum_empty]
  exact (walk_gains h .refl).knowsEnum hk

end Registration

namespace Schema.tree

theorem reaches_leaf : tree.Reaches node leaf := by
  apply RefersTo.reaches
  refine ⟨.message "leaf" 3 leaf, by decide, .plain ?_⟩
  rintro entry ⟨ht, he⟩
  obtain rfl := FieldType.message.inj ht
  exact absurd he (by decide)

theorem reachesEnum_color : tree.ReachesEnum node color := by
  refine ⟨node, .refl, .enum "color" 2 color, by decide, .plain ?_⟩
  rintro entry ⟨ht, _⟩
  exact absurd ht (by simp [FieldDecl.enum, FieldDecl.ofType])

end Schema.tree

namespace Registry
variable {S : Schema} {registry : Registry} {m : S.Message} {info : Shared MessageInfo}
variable {outcome : Outcome (Except Failure (Shared MessageInfo))} {name : String}

/-- Whether or not a registration succeeds, it publishes only what its type reaches. -/
theorem Registered.reaches (h : Registered S registry m outcome)
    (hk : outcome.registry.catalog.messages.contains name = true) :
    registry.catalog.messages.contains name = true ∨
      ∃ t, S.Reaches m t ∧ S.messageName t = name := by
  cases h with
  | unnamed _ | known _ _ | rejected _ _ _ => exact Or.inl hk
  | published _ _ hd _ =>
    have hs := (Registration.finished_draftMessage hd).sound
    exact Registration.reaches_of_knows hd ((Catalog.contains_publish_draft hs name).mp hk)

theorem Registered.reachesEnum (h : Registered S registry m outcome)
    (hk : outcome.registry.catalog.enums.contains name = true) :
    registry.catalog.enums.contains name = true ∨
      ∃ e, S.ReachesEnum m e ∧ S.enumName e = name := by
  cases h with
  | unnamed _ | known _ _ | rejected _ _ _ => exact Or.inl hk
  | published _ _ hd _ =>
    have hs := (Registration.finished_draftMessage hd).sound
    exact Registration.reachesEnum_of_knowsEnum hd
      ((Catalog.contains_enums_publish_draft hs name).mp hk)

/-- A registration that succeeds adds the names of exactly the types that its type reaches, and
answers with what is then published under the name of its type. -/
theorem register_publishes (hd : S.NamesDistinct) (hr : Reachable S registry)
    (hok : (registry.register S m).answer = .ok info) :
    (∀ name, name ∈ (registry.register S m).registry.catalog.messages.keys ↔
      name ∈ registry.catalog.messages.keys ∨ ∃ t, S.Reaches m t ∧ S.messageName t = name) ∧
    (∀ name, name ∈ (registry.register S m).registry.catalog.enums.keys ↔
      name ∈ registry.catalog.enums.keys ∨ ∃ e, S.ReachesEnum m e ∧ S.enumName e = name) ∧
    (registry.register S m).registry.catalog.message? (S.messageName m) = some info := by
  have hregistered : Registered S registry m (registry.register S m) := registered_register
  have hstep : Step S registry (registry.register S m).registry := .register m
  have hsound := hstep.sound hr.sound
  have hk := hregistered.contains hok
  simp only [← Table.contains_iff]
  refine ⟨fun name => ⟨hregistered.reaches, ?_⟩, fun name => ⟨hregistered.reachesEnum, ?_⟩,
    hregistered.message? hok⟩
  · rintro (hold | ⟨t, ht, rfl⟩)
    · exact hstep.keeps hold
    · exact hsound.reaches hd hk ht
  · rintro (hold | ⟨e, he, rfl⟩)
    · exact hstep.keepsEnum hold
    · exact hsound.reachesEnum hd hk he

theorem register_node_publishes :
    ∃ info, ((create 0 {}).registry.register .tree Schema.tree.node).answer = .ok info ∧
      "t.Leaf" ∈ ((create 0 {}).registry.register .tree
        Schema.tree.node).registry.catalog.messages.keys ∧
      "t.Color" ∈ ((create 0 {}).registry.register .tree
        Schema.tree.node).registry.catalog.enums.keys ∧
      ((create 0 {}).registry.register .tree Schema.tree.node).registry.catalog.message? "t.Node" =
        some info := by
  have hstrict : (create 0 {}).registry.config.strictNames = true := by rw [create_config]
  obtain ⟨info, hok⟩ := registered_register.isOk (hstrict ▸ Schema.tree.wellFormedFrom_node)
  obtain ⟨hmessages, henums, hstored⟩ :=
    register_publishes Schema.tree.namesDistinct (.create 0 {}) hok
  exact ⟨info, hok, (hmessages "t.Leaf").mpr (Or.inr ⟨_, Schema.tree.reaches_leaf, rfl⟩),
    (henums "t.Color").mpr (Or.inr ⟨_, Schema.tree.reachesEnum_color, rfl⟩), hstored⟩

end Registry
end MessageRegistry
