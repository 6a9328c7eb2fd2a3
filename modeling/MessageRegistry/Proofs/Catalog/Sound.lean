import MessageRegistry.Proofs.Catalog.Publish
import MessageRegistry.Proofs.Registration.Acceptance

/-!
What holds of every catalog. It describes declared, well-formed types under their names, and
whatever its descriptions refer to is described as well. Main statements: publishing a draft keeps
this, and where names are distinct a published type is well formed with all it reaches.
-/
namespace MessageRegistry.Catalog

def Covers (catalog : Catalog) : Element → Prop
  | .scalar _ => True
  | .message typeName => catalog.messages.contains typeName = true
  | .enum enumName => catalog.enums.contains enumName = true

structure Sound (S : Schema) (strict : Bool) (catalog : Catalog) : Prop where
  message : ∀ name shared, catalog.message? name = some shared →
    ∃ m, S.messageName m = name ∧ S.Describes m shared.value ∧ S.WellFormedMessage strict m
  enum : ∀ name shared, catalog.enum? name = some shared →
    ∃ e, S.enumName e = name ∧ S.DescribesEnum e shared.value ∧ S.WellFormedEnum strict e
  closed : ∀ name shared, catalog.message? name = some shared →
    ∀ field ∈ shared.value.fields, ∃ element, field.HasElement element ∧ catalog.Covers element

variable {S : Schema} {strict : Bool} {catalog : Catalog} {draft : Draft} {owner : Nat}
variable {element : Element}

theorem covers_publish_draft (hs : draft.Sound S catalog strict) (hp : draft.inProgress = [])
    (hc : draft.Covers catalog element) :
    (catalog.publish owner draft.messages.values draft.enums.values).Covers element := by
  cases element with
  | scalar kind => trivial
  | message typeName =>
    rcases hc with hm | hk
    · rw [hp] at hm
      exact absurd hm List.not_mem_nil
    · exact (contains_publish_draft hs typeName).mpr hk
  | enum enumName => exact (contains_enums_publish_draft hs enumName).mpr hc

theorem Covers.publish (hc : catalog.Covers element) (messages : List MessageInfo)
    (enums : List EnumInfo) : (catalog.publish owner messages enums).Covers element := by
  cases element with
  | scalar kind => trivial
  | message typeName => exact (contains_publish typeName).mpr (Or.inl hc)
  | enum enumName => exact (contains_enums_publish enumName).mpr (Or.inl hc)

namespace Sound

theorem empty : Sound S strict .empty := by
  constructor <;> simp [message?, enum?, Catalog.empty]

theorem publish (h : Sound S strict catalog) (hs : draft.Sound S catalog strict)
    (hp : draft.inProgress = []) :
    Sound S strict (catalog.publish owner draft.messages.values draft.enums.values) := by
  constructor
  · intro name shared hm
    rcases message?_publish hm with hm | ⟨hv, hn⟩
    · exact h.message name shared hm
    · obtain ⟨m, hd, hwf⟩ := hs.message shared.value hv
      exact ⟨m, hd.name.symm.trans hn, hd, hwf⟩
  · intro name shared he
    rcases enum?_publish he with he | ⟨hv, hn⟩
    · exact h.enum name shared he
    · obtain ⟨e, hd, hwf⟩ := hs.enum shared.value hv
      exact ⟨e, hd.name.symm.trans hn, hd, hwf⟩
  · intro name shared hm field hf
    rcases message?_publish hm with hm | ⟨hv, _⟩
    · obtain ⟨element, he, hc⟩ := h.closed name shared hm field hf
      exact ⟨element, he, hc.publish _ _⟩
    · obtain ⟨element, he, hc⟩ := hs.closed shared.value hv field hf
      exact ⟨element, he, covers_publish_draft hs hp hc⟩

section Distinct
variable {m t : S.Message} {e : S.Enum}

/-- Where names are distinct, what is published under a type's name describes that type. -/
theorem describes (h : Sound S strict catalog) (hd : S.NamesDistinct) {shared : Shared MessageInfo}
    (hm : catalog.message? (S.messageName m) = some shared) :
    S.Describes m shared.value ∧ S.WellFormedMessage strict m := by
  obtain ⟨other, hn, hdescribes, hwf⟩ := h.message _ shared hm
  obtain rfl := hd.message other m hn
  exact ⟨hdescribes, hwf⟩

theorem wellFormedEnum (h : Sound S strict catalog) (hd : S.NamesDistinct)
    (hk : catalog.enums.contains (S.enumName e) = true) : S.WellFormedEnum strict e := by
  obtain ⟨shared, he⟩ := Option.isSome_iff_exists.mp hk
  obtain ⟨other, hn, _, hwf⟩ := h.enum _ shared he
  obtain rfl := hd.enum other e hn
  exact hwf

theorem covers (h : Sound S strict catalog) (hd : S.NamesDistinct)
    (hk : catalog.messages.contains (S.messageName m) = true) {field : S.Field}
    (hf : field ∈ (S.message m).fields) {type : S.FieldType} (he : S.HasElement field type) :
    catalog.Covers (S.elementOf type) := by
  obtain ⟨shared, hm⟩ := Option.isSome_iff_exists.mp hk
  obtain ⟨info, hi, helement⟩ := (h.describes hd hm).1.exists_element hf he
  obtain ⟨element, hstored, hc⟩ := h.closed _ shared hm info hi
  rwa [hstored.unique helement] at hc

/-- A catalog is closed under references. -/
theorem reaches (h : Sound S strict catalog) (hd : S.NamesDistinct)
    (hk : catalog.messages.contains (S.messageName m) = true) (hr : S.Reaches m t) :
    catalog.messages.contains (S.messageName t) = true := by
  induction hr with
  | refl => exact hk
  | step _ hr ih =>
    obtain ⟨field, hf, he⟩ := hr
    exact h.covers hd ih hf he

theorem reachesEnum (h : Sound S strict catalog) (hd : S.NamesDistinct)
    (hk : catalog.messages.contains (S.messageName m) = true) (hr : S.ReachesEnum m e) :
    catalog.enums.contains (S.enumName e) = true := by
  obtain ⟨t, ht, field, hf, he⟩ := hr
  exact h.covers hd (h.reaches hd hk ht) hf he

theorem wellFormedFrom (h : Sound S strict catalog) (hd : S.NamesDistinct)
    (hk : catalog.messages.contains (S.messageName m) = true) : S.WellFormedFrom strict m := by
  constructor
  · intro t ht
    obtain ⟨shared, hm⟩ := Option.isSome_iff_exists.mp (h.reaches hd hk ht)
    exact (h.describes hd hm).2
  · intro e he
    exact h.wellFormedEnum hd (h.reachesEnum hd hk he)

end Distinct
end Sound
end MessageRegistry.Catalog
