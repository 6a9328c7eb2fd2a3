import MessageRegistry.Proofs.Registration.Fuel

/-!
What a walk accepts. Main statement: from a message type that reaches well-formed types only, a walk
succeeds, whatever is known or in progress when it starts.
-/
namespace MessageRegistry

namespace Schema
variable {S : Schema} {strict : Bool} {m t : S.Message}

def WellFormedElement (S : Schema) (strict : Bool) : S.FieldType → Prop
  | .scalar _ => True
  | .message t => S.WellFormedFrom strict t
  | .enum e => S.WellFormedEnum strict e

theorem WellFormedFrom.of_reaches (h : S.WellFormedFrom strict m) (hr : S.Reaches m t) :
    S.WellFormedFrom strict t := by
  constructor
  · intro u hu
    exact h.1 u (hr.trans S hu)
  · rintro e ⟨u, hu, he⟩
    exact h.2 e ⟨u, hr.trans S hu, he⟩

theorem WellFormedFrom.element (h : S.WellFormedFrom strict m) {field : S.Field}
    (hf : field ∈ (S.message m).fields) {type : S.FieldType} (he : S.HasElement field type) :
    S.WellFormedElement strict type := by
  cases type with
  | scalar kind => trivial
  | message t => exact h.of_reaches (RefersTo.reaches S ⟨field, hf, he⟩)
  | enum e => exact h.2 e ⟨m, .refl, field, hf, he⟩

end Schema

namespace Registration
variable {S : Schema} {catalog : Catalog} {strict : Bool} {fuel : Nat} {m : S.Message}
variable {draft : Draft}

theorem ensureEnum_isOk {e : S.Enum} (h : S.WellFormedEnum strict e) (draft : Draft) :
    ∃ final, ensureEnum S catalog strict e draft = .ok final := by
  by_cases hk : draft.KnowsEnum catalog (S.enumName e)
  · exact ⟨draft, ensureEnum_known hk⟩
  · have hd := Schema.describe?_eq_ok_iff.mpr ⟨h, rfl⟩
    exact ⟨draft.stageEnum (S.enum e).describe, by rw [ensureEnum_new hk, hd]⟩

theorem ensureElement_isOk {type : S.FieldType} (h : S.WellFormedElement strict type)
    (hE : ∀ t, S.WellFormedFrom strict t →
      ∃ final, walk S catalog strict fuel t draft = .ok final) :
    ∃ final,
      ensureElement S catalog strict (walk S catalog strict fuel) type draft = .ok final := by
  cases type with
  | scalar kind => exact ⟨draft, rfl⟩
  | message t => exact hE t h
  | enum e => exact ensureEnum_isOk h draft

/-- A walk over fields succeeds where each is well formed and so is whatever it refers to. -/
theorem walkFields_isOk {owner : String} {position : Nat} {fields : List S.Field}
    (hident : strict = true → ∀ field ∈ fields, Name.isIdentifier field.name = true)
    (hform : ∀ field ∈ fields, ∃ form, S.HasForm field form)
    (helement : ∀ field ∈ fields, ∀ type, S.HasElement field type →
      S.WellFormedElement strict type)
    (hE : ∀ t middle, middle.inProgress = draft.inProgress → S.WellFormedFrom strict t →
      ∃ final, walk S catalog strict fuel t middle = .ok final) :
    ∃ infos final, walkFields S catalog strict (walk S catalog strict fuel) owner position fields
      draft = .ok (infos, final) := by
  induction fields generalizing position draft with
  | nil => exact ⟨[], draft, rfl⟩
  | cons field fields ih =>
    obtain ⟨form, hf⟩ := hform field (by simp)
    have hread : S.form? strict owner field = .ok form :=
      Schema.form?_eq_ok_iff.mpr ⟨fun hs => hident hs field (by simp), hf⟩
    have hwf : S.WellFormedElement strict form.element :=
      helement field (by simp) _ ((Schema.hasElement_iff hf).mpr rfl)
    obtain ⟨middle, he⟩ := ensureElement_isOk hwf fun t => hE t draft rfl
    have hp : middle.inProgress = draft.inProgress :=
      (ensured_of_ensureElement_eq_ok (fun _ _ _ => walk_walked) he).extension.inProgress
    have hrest : ∃ infos final, walkFields S catalog strict (walk S catalog strict fuel) owner
        (position + 1) fields middle = .ok (infos, final) := by
      apply ih
      · exact fun hs other ho => hident hs other (by simp [ho])
      · exact fun other ho => hform other (by simp [ho])
      · exact fun other ho => helement other (by simp [ho])
      · exact fun t last hl => hE t last (hl.trans hp)
    obtain ⟨infos, final, hw⟩ := hrest
    refine ⟨S.describeField position field form :: infos, final, ?_⟩
    rw [walkFields_of_element_ok hread he, prepend_eq_ok_iff]
    exact ⟨infos, hw, rfl⟩

/-- Nothing in progress, drafted or published makes a walk over well-formed types fail. -/
theorem walk_isOk (h : S.WellFormedFrom strict m) (hfit : Fits S fuel draft.inProgress) :
    ∃ final, walk S catalog strict fuel m draft = .ok final := by
  induction fuel generalizing m draft with
  | zero => exact absurd rfl hfit.ne_zero
  | succ fuel ih =>
    have hwf := h.1 m .refl
    have hm : S.Describable m := ⟨hwf.named, hwf.not_entry⟩
    by_cases hp : S.messageName m ∈ draft.inProgress
    · exact ⟨_, walk_inProgress hm hp⟩
    · by_cases hk : draft.Knows catalog (S.messageName m)
      · exact ⟨_, walk_known hm hp hk⟩
      · have hfields : ∃ infos middle, walkFields S catalog strict (walk S catalog strict fuel)
            (S.messageName m) 0 (S.message m).fields (draft.enter (S.messageName m)) =
              .ok (infos, middle) := by
          apply walkFields_isOk hwf.identifiers hwf.hasForm
          · exact fun field hf type he => h.element hf he
          · exact fun t middle hi ht => ih ht (by rw [hi]; exact hfit.enter hp)
        obtain ⟨infos, middle, hw⟩ := hfields
        obtain ⟨info, hi⟩ := hwf.ofFields? (walkFields_walked hw).read
        refine ⟨(middle.leave (S.messageName m)).stageMessage info, ?_⟩
        rw [walk_new hm hp hk, conclude_eq_ok_iff]
        exact ⟨infos, middle, info, hw, hi, rfl⟩

theorem draftMessage_isOk (h : S.WellFormedFrom strict m) :
    ∃ final, draftMessage S catalog strict m = .ok final :=
  walk_isOk h (.start S)

end Registration
end MessageRegistry
