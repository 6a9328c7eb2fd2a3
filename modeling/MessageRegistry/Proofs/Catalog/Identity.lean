import MessageRegistry.Proofs.Catalog.Publish
import MessageRegistry.Proofs.Registration.Fresh

/-!
Published objects. Main statements: publishing a fresh draft leaves every object that was published
where it is, and no two names share an object.
-/
namespace MessageRegistry.Catalog

section Fold
variable {α : Type} {step : Catalog → α → Catalog} {table : Catalog → Table String (Shared α)}
variable {name : α → String} {infos : List α} {key : String}

theorem Publishes.get?_foldl_of_ne (h : Publishes step table name) (catalog : Catalog)
    (hn : ∀ info ∈ infos, name info ≠ key) :
    (table (infos.foldl step catalog)).get? key = (table catalog).get? key := by
  induction infos generalizing catalog with
  | nil => rfl
  | cons info infos ih =>
    obtain ⟨hinfo, hinfos⟩ := List.forall_mem_cons.mp hn
    obtain ⟨handle, hi⟩ := h catalog info
    rw [List.foldl_cons, ih _ hinfos, hi, Table.get?_insert, if_neg hinfo]

/-- Where names differ, each description stands under its name in the end. -/
theorem Publishes.get?_foldl_of_mem (h : Publishes step table name) (hn : (infos.map name).Nodup)
    {info : α} (hi : info ∈ infos) (catalog : Catalog) :
    ∃ shared, (table (infos.foldl step catalog)).get? (name info) = some shared ∧
      shared.value = info := by
  induction infos generalizing catalog with
  | nil => cases hi
  | cons first infos ih =>
    obtain ⟨hfirst, hinfos⟩ := List.nodup_cons.mp hn
    rcases List.mem_cons.mp hi with rfl | hi
    · obtain ⟨handle, hs⟩ := h catalog info
      have hne : ∀ other ∈ infos, name other ≠ name info :=
        fun other ho heq => hfirst (List.mem_map.mpr ⟨other, ho, heq⟩)
      exact ⟨⟨handle, info⟩, by
        rw [List.foldl_cons, h.get?_foldl_of_ne _ hne, hs, Table.get?_insert_self], rfl⟩
    · exact ih hinfos hi (step catalog first)

theorem Publishes.nodup_keys_foldl (h : Publishes step table name) {catalog : Catalog}
    (hk : (table catalog).keys.Nodup) : (table (infos.foldl step catalog)).keys.Nodup := by
  induction infos generalizing catalog with
  | nil => exact hk
  | cons info infos ih =>
    obtain ⟨handle, hi⟩ := h catalog info
    apply ih
    rw [hi]
    exact Table.nodup_keys_insert hk _ _

end Fold

variable {owner : Nat} {catalog : Catalog} {messages : List MessageInfo} {enums : List EnumInfo}
variable {name : String}

theorem message?_publish_of_ne (hn : ∀ info ∈ messages, info.name ≠ name) :
    (catalog.publish owner messages enums).message? name = catalog.message? name := by
  rw [message?, publish, messages_foldl_publishEnum,
    publishes_publishMessage.get?_foldl_of_ne catalog hn, message?]

theorem enum?_publish_of_ne (hn : ∀ info ∈ enums, info.name ≠ name) :
    (catalog.publish owner messages enums).enum? name = catalog.enum? name := by
  rw [enum?, publish, publishes_publishEnum.get?_foldl_of_ne _ hn, enums_foldl_publishMessage,
    enum?]

section Draft
variable {S : Schema} {strict : Bool} {draft : Draft}

theorem message?_publish_draft (hs : draft.Sound S catalog strict) (hf : draft.Fresh catalog)
    {shared : Shared MessageInfo} (hm : catalog.message? name = some shared) :
    (catalog.publish owner draft.messages.values draft.enums.values).message? name =
      some shared := by
  rw [message?_publish_of_ne, hm]
  intro info hi hn
  have hdrafted := (Table.contains_iff_of_keyed hs.keyed name).mpr ⟨info, hi, hn⟩
  exact hf.message name hdrafted (Option.isSome_iff_exists.mpr ⟨shared, hm⟩)

theorem enum?_publish_draft (hs : draft.Sound S catalog strict) (hf : draft.Fresh catalog)
    {shared : Shared EnumInfo} (he : catalog.enum? name = some shared) :
    (catalog.publish owner draft.messages.values draft.enums.values).enum? name =
      some shared := by
  rw [enum?_publish_of_ne, he]
  intro info hi hn
  have hdrafted := (Table.contains_iff_of_keyed hs.enumKeyed name).mpr ⟨info, hi, hn⟩
  exact hf.enum name hdrafted (Option.isSome_iff_exists.mpr ⟨shared, he⟩)

/-- A fresh draft names its descriptions apart, so that each is published as it stands. -/
theorem message?_publish_of_mem_draft (hs : draft.Sound S catalog strict) (hf : draft.Fresh catalog)
    {info : MessageInfo} (hi : info ∈ draft.messages.values) :
    ∃ shared, (catalog.publish owner draft.messages.values draft.enums.values).message? info.name =
      some shared ∧ shared.value = info := by
  have hnames : (draft.messages.values.map MessageInfo.name).Nodup := by
    rw [← Table.keys_eq_map_values hs.keyed]
    exact hf.names
  rw [message?, publish, messages_foldl_publishEnum]
  exact publishes_publishMessage.get?_foldl_of_mem hnames hi catalog

theorem enum?_publish_of_mem_draft (hs : draft.Sound S catalog strict) (hf : draft.Fresh catalog)
    {info : EnumInfo} (hi : info ∈ draft.enums.values) :
    ∃ shared, (catalog.publish owner draft.messages.values draft.enums.values).enum? info.name =
      some shared ∧ shared.value = info := by
  have hnames : (draft.enums.values.map EnumInfo.name).Nodup := by
    rw [← Table.keys_eq_map_values hs.enumKeyed]
    exact hf.enumNames
  exact publishes_publishEnum.get?_foldl_of_mem hnames hi _

theorem mem_keys_draft_iff (hs : draft.Sound S catalog strict) (hf : draft.Fresh catalog)
    (owner : Nat) (name : String) :
    name ∈ draft.messages.keys ↔
      name ∈ (catalog.publish owner draft.messages.values draft.enums.values).messages.keys ∧
        name ∉ catalog.messages.keys := by
  have hnew := hf.message name
  rw [← Table.contains_iff, ← Table.contains_iff, ← Table.contains_iff, contains_publish_draft hs,
    Draft.Knows]
  tauto

theorem mem_enum_keys_draft_iff (hs : draft.Sound S catalog strict) (hf : draft.Fresh catalog)
    (owner : Nat) (name : String) :
    name ∈ draft.enums.keys ↔
      name ∈ (catalog.publish owner draft.messages.values draft.enums.values).enums.keys ∧
        name ∉ catalog.enums.keys := by
  have hnew := hf.enum name
  rw [← Table.contains_iff, ← Table.contains_iff, ← Table.contains_iff,
    contains_enums_publish_draft hs, Draft.KnowsEnum]
  tauto

end Draft

/-- The published message types are objects of the registry `owner`, none of them is still to come,
and each has one name. -/
structure Identified (owner : Nat) (catalog : Catalog) : Prop where
  owner : ∀ name shared, catalog.message? name = some shared → shared.handle.registry = owner
  issued : ∀ name shared, catalog.message? name = some shared →
    shared.handle.serial < catalog.nextSerial
  name_unique : ∀ a b x y, catalog.message? a = some x → catalog.message? b = some y →
    x.handle = y.handle → a = b

namespace Identified

theorem empty : Identified owner .empty := by
  constructor <;> simp [message?, Catalog.empty]

theorem publishMessage (h : Identified owner catalog) (info : MessageInfo) :
    Identified owner (catalog.publishMessage owner info) := by
  have hget : ∀ name shared, (catalog.publishMessage owner info).message? name = some shared →
      name = info.name ∧ shared = ⟨⟨owner, catalog.nextSerial⟩, info⟩ ∨
        catalog.message? name = some shared := by
    intro name shared hm
    simp only [message?, Catalog.publishMessage, Table.get?_insert] at hm
    split at hm
    · rename_i hn
      exact Or.inl ⟨hn.symm, (Option.some.inj hm).symm⟩
    · exact Or.inr hm
  -- the new object's serial is above those of the objects before it
  have hnew : ∀ name shared, catalog.message? name = some shared →
      shared.handle ≠ ⟨owner, catalog.nextSerial⟩ := by
    intro name shared hm heq
    have hlt := h.issued name shared hm
    rw [heq] at hlt
    exact absurd hlt (Nat.lt_irrefl _)
  constructor
  · intro name shared hm
    rcases hget name shared hm with ⟨_, rfl⟩ | hm
    · rfl
    · exact h.owner name shared hm
  · intro name shared hm
    rcases hget name shared hm with ⟨_, rfl⟩ | hm
    · exact Nat.lt_succ_self _
    · exact Nat.lt_succ_of_lt (h.issued name shared hm)
  · intro a b x y ha hb hxy
    rcases hget a x ha with ⟨rfl, rfl⟩ | ha <;> rcases hget b y hb with ⟨rfl, rfl⟩ | hb
    · rfl
    · exact absurd hxy.symm (hnew b y hb)
    · exact absurd hxy (hnew a x ha)
    · exact h.name_unique a b x y ha hb hxy

theorem publishEnum (h : Identified owner catalog) (info : EnumInfo) :
    Identified owner (catalog.publishEnum owner info) :=
  ⟨h.owner, fun name shared hm => Nat.lt_succ_of_lt (h.issued name shared hm), h.name_unique⟩

/-- New objects are different from all objects before them. -/
theorem publish (h : Identified owner catalog) (messages : List MessageInfo)
    (enums : List EnumInfo) : Identified owner (catalog.publish owner messages enums) := by
  have hmessages : Identified owner (messages.foldl (Catalog.publishMessage owner) catalog) :=
    List.foldlRecOn messages _ h fun _ hc info _ => hc.publishMessage info
  exact List.foldlRecOn enums _ hmessages fun _ hc info _ => hc.publishEnum info

end Identified
end MessageRegistry.Catalog
