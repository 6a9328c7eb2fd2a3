import MessageRegistry.Proofs.Registration.Induction
import MessageRegistry.Proofs.Schema.Description

/-!
What a draft may replace. A walk describes a type only if its name is neither published nor drafted.
Main statement: nothing that a walk drafts is published already, and no name is drafted twice.
-/
namespace MessageRegistry

/-- No name of the draft is published, and each stands in the draft once. -/
structure Draft.Fresh (catalog : Catalog) (draft : Draft) : Prop where
  message : ∀ name, draft.messages.contains name = true → ¬ catalog.messages.contains name = true
  enum : ∀ name, draft.enums.contains name = true → ¬ catalog.enums.contains name = true
  names : draft.messages.keys.Nodup
  enumNames : draft.enums.keys.Nodup

namespace Draft.Fresh
variable {catalog : Catalog} {draft : Draft}

theorem empty : Draft.empty.Fresh catalog := by
  constructor <;>
    simp [Draft.empty, Table.empty, Table.contains, Table.get?, Table.find, Table.keys]

theorem enter (h : draft.Fresh catalog) (name : String) : (draft.enter name).Fresh catalog :=
  ⟨h.message, h.enum, h.names, h.enumNames⟩

theorem leave (h : draft.Fresh catalog) (name : String) : (draft.leave name).Fresh catalog :=
  ⟨h.message, h.enum, h.names, h.enumNames⟩

theorem revisit (h : draft.Fresh catalog) (name : String) : (draft.revisit name).Fresh catalog :=
  ⟨h.message, h.enum, h.names, h.enumNames⟩

theorem stageMessage (h : draft.Fresh catalog) {info : MessageInfo}
    (hn : ¬ catalog.messages.contains info.name = true) :
    (draft.stageMessage info).Fresh catalog := by
  refine ⟨fun name hk => ?_, h.enum, Table.nodup_keys_insert h.names _ _, h.enumNames⟩
  simp only [Draft.stageMessage, Table.contains_insert, Bool.or_eq_true, decide_eq_true_eq] at hk
  rcases hk with rfl | hk
  · exact hn
  · exact h.message name hk

theorem stageEnum (h : draft.Fresh catalog) {info : EnumInfo}
    (hn : ¬ catalog.enums.contains info.name = true) : (draft.stageEnum info).Fresh catalog := by
  refine ⟨h.message, fun name hk => ?_, h.names, Table.nodup_keys_insert h.enumNames _ _⟩
  simp only [Draft.stageEnum, Table.contains_insert, Bool.or_eq_true, decide_eq_true_eq] at hk
  rcases hk with rfl | hk
  · exact hn
  · exact h.enum name hk

end Draft.Fresh

namespace Registration
variable {S : Schema} {catalog : Catalog} {strict : Bool} {fuel : Nat} {m : S.Message}
variable {draft final : Draft}

theorem Ensured.fresh {type : S.FieldType}
    (h : Ensured S catalog strict
      (fun _ draft final => draft.Fresh catalog → final.Fresh catalog) type draft final)
    (hf : draft.Fresh catalog) : final.Fresh catalog := by
  cases h with
  | scalar kind => exact hf
  | message h => exact h hf
  | knownEnum h => exact hf
  | @newEnum e _ info hn h =>
    obtain ⟨_, rfl⟩ := Schema.describe?_eq_ok_iff.mp h
    exact hf.stageEnum fun hc => hn (Or.inl hc)

/-- A walk stages a type under a name that neither the catalog nor the draft has. -/
theorem walk_fresh (h : walk S catalog strict fuel m draft = .ok final)
    (hf : draft.Fresh catalog) : final.Fresh catalog := by
  revert hf
  refine walk_induction
    (P := fun _ draft final => draft.Fresh catalog → final.Fresh catalog)
    (F := fun _ _ _ draft _ final => draft.Fresh catalog → final.Fresh catalog) ?_ ?_ ?_ ?_ ?_ h
  · intro m draft _ _ hf
    exact hf.revisit _
  · intro m draft _ _ _ hf
    exact hf
  · intro m draft infos middle info _ _ hk hw hi hf
    have hmiddle : (middle.leave (S.messageName m)).Fresh catalog := (hw (hf.enter _)).leave _
    apply hmiddle.stageMessage
    rw [MessageInfo.name_of_ofFields? hi]
    exact fun hc => hk (Or.inl hc)
  · intro _ _ draft hf
    exact hf
  · intro owner position field fields form draft middle infos final _ he hw hf
    exact hw (he.fresh hf)

end Registration
end MessageRegistry
