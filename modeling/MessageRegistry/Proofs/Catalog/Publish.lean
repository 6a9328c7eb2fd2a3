import MessageRegistry.Proofs.Registration.Sound

/-!
Publication. Main statements: a catalog holds what it held and what is published, and a draft whose
descriptions are under their names is published under the names it knows.
-/
namespace MessageRegistry.Catalog

section Fold
variable {α : Type} {step : Catalog → α → Catalog} {table : Catalog → Table String (Shared α)}
variable {name : α → String}

/-- Publishing a description writes it to a table, under its name. -/
def Publishes (step : Catalog → α → Catalog) (table : Catalog → Table String (Shared α))
    (name : α → String) : Prop :=
  ∀ catalog a, ∃ handle, table (step catalog a) = (table catalog).insert (name a) ⟨handle, a⟩

theorem Publishes.contains_foldl (h : Publishes step table name) (infos : List α)
    (catalog : Catalog) (key : String) :
    (table (infos.foldl step catalog)).contains key = true ↔
      (table catalog).contains key = true ∨ ∃ info ∈ infos, name info = key := by
  induction infos generalizing catalog with
  | nil => simp
  | cons info infos ih =>
    obtain ⟨handle, hi⟩ := h catalog info
    rw [List.foldl_cons, ih, hi, Table.contains_insert]
    simp only [Bool.or_eq_true, decide_eq_true_eq, List.mem_cons, exists_eq_or_imp]
    rw [or_comm (a := name info = key), or_assoc]

theorem Publishes.get?_foldl (h : Publishes step table name) {infos : List α} {catalog : Catalog}
    {key : String} {shared : Shared α}
    (hg : (table (infos.foldl step catalog)).get? key = some shared) :
    (table catalog).get? key = some shared ∨
      shared.value ∈ infos ∧ name shared.value = key := by
  induction infos generalizing catalog with
  | nil => exact Or.inl hg
  | cons info infos ih =>
    rcases ih hg with hg | ⟨hm, hn⟩
    · obtain ⟨handle, hi⟩ := h catalog info
      rw [hi, Table.get?_insert] at hg
      split at hg
      · rename_i hk
        obtain rfl := Option.some.inj hg
        exact Or.inr ⟨List.mem_cons_self, hk⟩
      · exact Or.inl hg
    · exact Or.inr ⟨List.mem_cons_of_mem _ hm, hn⟩

end Fold

variable {owner : Nat} {catalog : Catalog} {messages : List MessageInfo} {enums : List EnumInfo}

theorem publishes_publishMessage :
    Publishes (publishMessage owner) Catalog.messages MessageInfo.name :=
  fun catalog _ => ⟨⟨owner, catalog.nextSerial⟩, rfl⟩

theorem publishes_publishEnum : Publishes (publishEnum owner) Catalog.enums EnumInfo.name :=
  fun catalog _ => ⟨⟨owner, catalog.nextSerial⟩, rfl⟩

theorem messages_foldl_publishEnum (catalog : Catalog) :
    (enums.foldl (publishEnum owner) catalog).messages = catalog.messages := by
  induction enums generalizing catalog with
  | nil => rfl
  | cons info enums ih => rw [List.foldl_cons, ih]; rfl

theorem enums_foldl_publishMessage (catalog : Catalog) :
    (messages.foldl (publishMessage owner) catalog).enums = catalog.enums := by
  induction messages generalizing catalog with
  | nil => rfl
  | cons info messages ih => rw [List.foldl_cons, ih]; rfl

theorem contains_publish (name : String) :
    (catalog.publish owner messages enums).messages.contains name = true ↔
      catalog.messages.contains name = true ∨ ∃ info ∈ messages, info.name = name := by
  rw [publish, messages_foldl_publishEnum]
  exact publishes_publishMessage.contains_foldl messages catalog name

theorem contains_enums_publish (name : String) :
    (catalog.publish owner messages enums).enums.contains name = true ↔
      catalog.enums.contains name = true ∨ ∃ info ∈ enums, info.name = name := by
  rw [publish, publishes_publishEnum.contains_foldl enums, enums_foldl_publishMessage]

theorem message?_publish {name : String} {shared : Shared MessageInfo}
    (h : (catalog.publish owner messages enums).message? name = some shared) :
    catalog.message? name = some shared ∨ shared.value ∈ messages ∧ shared.value.name = name := by
  rw [message?, publish, messages_foldl_publishEnum] at h
  exact publishes_publishMessage.get?_foldl h

theorem enum?_publish {name : String} {shared : Shared EnumInfo}
    (h : (catalog.publish owner messages enums).enum? name = some shared) :
    catalog.enum? name = some shared ∨ shared.value ∈ enums ∧ shared.value.name = name := by
  have hp := publishes_publishEnum.get?_foldl h
  rwa [enums_foldl_publishMessage] at hp

section Draft
variable {S : Schema} {strict : Bool} {draft : Draft}

/-- Publishing a draft makes known what the draft knew. -/
theorem contains_publish_draft (h : draft.Sound S catalog strict) (name : String) :
    (catalog.publish owner draft.messages.values draft.enums.values).messages.contains name =
      true ↔ draft.Knows catalog name := by
  rw [contains_publish, Draft.Knows, Table.contains_iff_of_keyed h.keyed]

theorem contains_enums_publish_draft (h : draft.Sound S catalog strict) (name : String) :
    (catalog.publish owner draft.messages.values draft.enums.values).enums.contains name =
      true ↔ draft.KnowsEnum catalog name := by
  rw [contains_enums_publish, Draft.KnowsEnum, Table.contains_iff_of_keyed h.enumKeyed]

end Draft
end MessageRegistry.Catalog
