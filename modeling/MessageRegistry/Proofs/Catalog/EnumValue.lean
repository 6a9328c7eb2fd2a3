import Mathlib.Data.List.Nodup
import MessageRegistry.Proofs.Catalog.Identity
import MessageRegistry.Proofs.Catalog.Sound

/-!
The full names of published enum values. Main statements: publishing a draft changes the answers
for the names that its enums bring and no others; and where names are strict, no two enums bring the
same name.
-/
namespace MessageRegistry.Catalog

section Publish
variable {owner : Nat} {catalog : Catalog} {messages : List MessageInfo} {enums : List EnumInfo}

theorem enumValues_foldl_publishMessage (catalog : Catalog) :
    (messages.foldl (publishMessage owner) catalog).enumValues = catalog.enumValues := by
  induction messages generalizing catalog with
  | nil => rfl
  | cons info messages ih => rw [List.foldl_cons, ih]; rfl

theorem enumValues_foldl_publishEnum (catalog : Catalog) :
    (enums.foldl (publishEnum owner) catalog).enumValues =
      (enums.flatMap (·.values)).foldl (fun values value => values.insert value.name value)
        catalog.enumValues := by
  induction enums generalizing catalog with
  | nil => rfl
  | cons info enums ih =>
    rw [List.foldl_cons, ih, List.flatMap_cons, List.foldl_append]
    rfl

theorem enumValue?_publish (name : String) :
    (catalog.publish owner messages enums).enumValue? name =
      ((enums.flatMap (·.values)).reverse.find? fun value => value.name = name).or
        (catalog.enumValue? name) := by
  rw [enumValue?, publish, enumValues_foldl_publishEnum, Table.get?_foldl_insert,
    enumValues_foldl_publishMessage, enumValue?]

end Publish

def Gains (before after : Catalog) (value : EnumValueInfo) : Prop :=
  ∃ name shared, before.enum? name = none ∧ after.enum? name = some shared ∧
    value ∈ shared.value.values

/-- The later catalog keeps the enums, and its answers about enum values too, except for full names
of values that it gained: there it answers with one of those. -/
structure Succeeds (before after : Catalog) : Prop where
  enum? : ∀ name shared, before.enum? name = some shared → after.enum? name = some shared
  kept : ∀ name, (∀ value, before.Gains after value → value.name ≠ name) →
    after.enumValue? name = before.enumValue? name
  gained : ∀ value, before.Gains after value → ∃ latest, before.Gains after latest ∧
    latest.name = value.name ∧ after.enumValue? value.name = some latest

namespace Succeeds
variable {before middle after : Catalog} {value : EnumValueInfo}

theorem refl (catalog : Catalog) : Succeeds catalog catalog := by
  refine ⟨fun _ _ he => he, fun _ _ => rfl, ?_⟩
  rintro value ⟨name, shared, hnone, hsome, _⟩
  exact absurd (hnone.symm.trans hsome) (by simp)

theorem gains_iff (h : Succeeds before middle) (g : Succeeds middle after) :
    before.Gains after value ↔ before.Gains middle value ∨ middle.Gains after value := by
  constructor
  · rintro ⟨name, shared, hnone, hsome, hv⟩
    cases hm : middle.enum? name with
    | none => exact Or.inr ⟨name, shared, hm, hsome, hv⟩
    | some other =>
      obtain rfl := Option.some.inj ((g.enum? name other hm).symm.trans hsome)
      exact Or.inl ⟨name, other, hnone, hm, hv⟩
  · rintro (⟨name, shared, hnone, hsome, hv⟩ | ⟨name, shared, hnone, hsome, hv⟩)
    · exact ⟨name, shared, hnone, g.enum? name shared hsome, hv⟩
    · refine ⟨name, shared, ?_, hsome, hv⟩
      cases hb : before.enum? name with
      | none => rfl
      | some other => exact absurd ((h.enum? name other hb).symm.trans hnone) (by simp)

theorem trans (h : Succeeds before middle) (g : Succeeds middle after) :
    Succeeds before after := by
  refine ⟨fun name shared he => g.enum? name shared (h.enum? name shared he), ?_, ?_⟩
  · intro name hn
    rw [g.kept name fun value hv => hn value ((h.gains_iff g).mpr (Or.inr hv)),
      h.kept name fun value hv => hn value ((h.gains_iff g).mpr (Or.inl hv))]
  · intro value hv
    by_cases hlater : ∃ other, middle.Gains after other ∧ other.name = value.name
    · obtain ⟨other, ho, hn⟩ := hlater
      obtain ⟨latest, hl, hname, hanswer⟩ := g.gained other ho
      rw [hn] at hname hanswer
      exact ⟨latest, (h.gains_iff g).mpr (Or.inr hl), hname, hanswer⟩
    · -- nothing was written over what the middle catalog gained
      have hkept := g.kept value.name fun other ho hn => hlater ⟨other, ho, hn⟩
      rcases (h.gains_iff g).mp hv with hv | hv
      · obtain ⟨latest, hl, hname, hanswer⟩ := h.gained value hv
        exact ⟨latest, (h.gains_iff g).mpr (Or.inl hl), hname, hkept.trans hanswer⟩
      · exact absurd ⟨value, hv, rfl⟩ hlater

end Succeeds

section Draft
variable {S : Schema} {strict : Bool} {catalog : Catalog} {draft : Draft} {owner : Nat}

theorem gains_publish_draft (hs : draft.Sound S catalog strict) (hf : draft.Fresh catalog)
    (value : EnumValueInfo) :
    catalog.Gains (catalog.publish owner draft.messages.values draft.enums.values) value ↔
      value ∈ draft.enums.values.flatMap (·.values) := by
  rw [List.mem_flatMap]
  constructor
  · rintro ⟨name, shared, hnone, hsome, hv⟩
    rcases enum?_publish hsome with hold | ⟨hm, _⟩
    · exact absurd (hnone.symm.trans hold) (by simp)
    · exact ⟨shared.value, hm, hv⟩
  · rintro ⟨info, hi, hv⟩
    have hdrafted := (Table.contains_iff_of_keyed hs.enumKeyed info.name).mpr ⟨info, hi, rfl⟩
    have hnone : catalog.enum? info.name = none :=
      (Table.not_contains_iff _ _).mp (hf.enum info.name hdrafted)
    obtain ⟨shared, hsome, rfl⟩ := enum?_publish_of_mem_draft hs hf hi
    exact ⟨shared.value.name, shared, hnone, hsome, hv⟩

/-- Of the values that a draft brings, the last of each full name is answered. -/
theorem succeeds_publish_draft (hs : draft.Sound S catalog strict) (hf : draft.Fresh catalog) :
    catalog.Succeeds (catalog.publish owner draft.messages.values draft.enums.values) := by
  refine ⟨fun name shared he => enum?_publish_draft hs hf he, ?_, ?_⟩
  · intro name hn
    rw [enumValue?_publish, List.find?_eq_none.mpr, Option.none_or]
    intro value hv
    simpa using hn value ((gains_publish_draft hs hf value).mpr (List.mem_reverse.mp hv))
  · intro value hv
    have hm := (gains_publish_draft hs hf value).mp hv
    rw [enumValue?_publish]
    cases hfind : (draft.enums.values.flatMap (·.values)).reverse.find?
        fun other => other.name = value.name with
    | none =>
      have hnone := List.find?_eq_none.mp hfind value (List.mem_reverse.mpr hm)
      simp at hnone
    | some latest =>
      have hlatest := List.mem_reverse.mp (List.mem_of_find?_eq_some hfind)
      have hname : latest.name = value.name := by simpa using List.find?_some hfind
      exact ⟨latest, (gains_publish_draft hs hf latest).mpr hlatest, hname, rfl⟩

end Draft

section Sound
variable {S : Schema} {strict : Bool} {catalog before after : Catalog} {name : String}
variable {shared : Shared EnumInfo} {value : EnumValueInfo}

theorem Sound.enumValue (h : Sound S strict catalog) (he : catalog.enum? name = some shared)
    (hv : value ∈ shared.value.values) :
    value.enumName = name ∧ ∃ short, value.name = Name.qualify name short ∧
      (strict = true → Name.isIdentifier short = true) := by
  obtain ⟨e, rfl, hd, hwf⟩ := h.enum name shared he
  rw [hd.values] at hv
  obtain ⟨decl, hdecl, rfl⟩ := List.mem_map.mp hv
  exact ⟨rfl, decl.name, rfl, fun hs => hwf.identifiers hs decl hdecl⟩

theorem Sound.enumName_eq (h : Sound S true catalog) {other : String} {sibling : Shared EnumInfo}
    {twin : EnumValueInfo} (he : catalog.enum? name = some shared)
    (ho : catalog.enum? other = some sibling) (hv : value ∈ shared.value.values)
    (ht : twin ∈ sibling.value.values) (hname : value.name = twin.name) : name = other := by
  obtain ⟨_, short, hshort, hident⟩ := h.enumValue he hv
  obtain ⟨_, last, hlast, hidentLast⟩ := h.enumValue ho ht
  rw [hshort, hlast] at hname
  exact (Name.qualify_inj (Name.not_mem_of_isIdentifier (hident rfl))
    (Name.not_mem_of_isIdentifier (hidentLast rfl)) hname).1

theorem Succeeds.exists_enumValue? (h : Succeeds before after)
    (hv : before.enumValue? value.name = some value) :
    ∃ latest, after.enumValue? value.name = some latest ∧ latest.name = value.name := by
  by_cases hn : ∃ gained, before.Gains after gained ∧ gained.name = value.name
  · obtain ⟨gained, hg, hn⟩ := hn
    obtain ⟨latest, _, hlatest, hanswer⟩ := h.gained gained hg
    rw [hn] at hlatest hanswer
    exact ⟨latest, hanswer, hlatest⟩
  · exact ⟨value, (h.kept value.name fun gained hg hn' => hn ⟨gained, hg, hn'⟩).trans hv, rfl⟩

/-- The answer for a published value stays as long as no value of its full name is gained. -/
theorem Succeeds.enumValue?_eq_iff (h : Succeeds before after) (hs : after.Sound S strict)
    (hv : before.enumValue? value.name = some value)
    (he : before.enum? value.enumName = some shared) :
    after.enumValue? value.name = some value ↔
      ∀ gained, before.Gains after gained → gained.name ≠ value.name := by
  constructor
  · intro hsame gained hg hn
    -- the latest value belongs to an enum that was not published before
    obtain ⟨latest, ⟨enumName, other, hnone, hsome, hl⟩, _, hanswer⟩ := h.gained gained hg
    rw [hn, hsame] at hanswer
    obtain rfl := Option.some.inj hanswer
    obtain rfl := (hs.enumValue hsome hl).1
    exact absurd (hnone.symm.trans he) (by simp)
  · intro hn
    rw [h.kept value.name hn, hv]

/-- Where names are strict, an enum gains no full name of a published value. -/
theorem Succeeds.name_ne_of_gains (h : Succeeds before after) (hs : after.Sound S true)
    (he : before.enum? value.enumName = some shared) (hm : value ∈ shared.value.values)
    {gained : EnumValueInfo} (hg : before.Gains after gained) : gained.name ≠ value.name := by
  obtain ⟨enumName, other, hnone, hsome, hgm⟩ := hg
  intro hn
  obtain rfl := hs.enumName_eq hsome (h.enum? _ _ he) hgm hm hn
  exact absurd (hnone.symm.trans he) (by simp)

end Sound
end MessageRegistry.Catalog
