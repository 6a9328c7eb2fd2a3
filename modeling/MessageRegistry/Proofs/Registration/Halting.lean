import MessageRegistry.Proofs.Registration.Sound

/-!
Where a walk halts. Main statement: a walk that fails does so at one place, which is found by
following the fields whose types it was resolving, and the fault is wrapped once for each of them.
-/
namespace MessageRegistry.Registration
variable {S : Schema} {catalog : Catalog} {strict : Bool} {fuel : Nat} {m : S.Message}
variable {draft middle : Draft} {field : S.Field} {fields : List S.Field} {halt : Halt}

/-- A walk over fields halts at the first field that it cannot read, or whose element it cannot
make sure of. -/
theorem walkFields_eq_error {ensure : S.Message → Draft → Except Halt Draft} {owner : String}
    {position : Nat}
    (h : walkFields S catalog strict ensure owner position fields draft = .error halt) :
    ∃ before field after infos middle, fields = before ++ field :: after ∧
      walkFields S catalog strict ensure owner position before draft = .ok (infos, middle) ∧
      ((∃ fault, S.form? strict owner field = .error fault ∧
          halt = .rejected fault middle.trail) ∨
        ∃ form inner, S.form? strict owner field = .ok form ∧
          ensureElement S catalog strict ensure form.element middle = .error inner ∧
          halt = inner.inField owner field.name) := by
  induction fields generalizing position draft with
  | nil => cases h
  | cons field fields ih =>
    cases hf : S.form? strict owner field with
    | error fault =>
      rw [walkFields_of_form_error hf] at h
      cases h
      exact ⟨[], field, fields, [], draft, rfl, rfl, Or.inl ⟨fault, hf, rfl⟩⟩
    | ok form =>
      cases he : ensureElement S catalog strict ensure form.element draft with
      | error inner =>
        rw [walkFields_of_element_error hf he] at h
        cases h
        exact ⟨[], field, fields, [], draft, rfl, rfl, Or.inr ⟨form, inner, hf, he, rfl⟩⟩
      | ok next =>
        rw [walkFields_of_element_ok hf he, prepend_eq_error_iff] at h
        obtain ⟨before, other, after, infos, middle, rfl, hw, hhalt⟩ := ih h
        refine ⟨field :: before, other, after, S.describeField position field form :: infos, middle,
          rfl, ?_, hhalt⟩
        rw [walkFields_of_element_ok hf he, prepend_eq_ok_iff]
        exact ⟨infos, hw, rfl⟩

structure Enters (S : Schema) (catalog : Catalog) (m : S.Message) (draft : Draft) : Prop where
  describable : S.Describable m
  not_inProgress : S.messageName m ∉ draft.inProgress
  not_knows : ¬ draft.Knows catalog (S.messageName m)

/-- A walk goes into a message type and comes, past the fields before it, to this field. -/
structure ComesTo (S : Schema) (catalog : Catalog) (strict : Bool) (fuel : Nat) (m : S.Message)
    (draft : Draft) (field : S.Field) (middle : Draft) : Prop where
  enters : Enters S catalog m draft
  past : ∃ before after infos, (S.message m).fields = before ++ field :: after ∧
    walkFields S catalog strict (walk S catalog strict fuel) (S.messageName m) 0 before
      (draft.enter (S.messageName m)) = .ok (infos, middle)

namespace ComesTo

theorem mem (h : ComesTo S catalog strict fuel m draft field middle) :
    field ∈ (S.message m).fields := by
  obtain ⟨before, after, infos, hfields, _⟩ := h.past
  simp [hfields]

theorem extension (h : ComesTo S catalog strict fuel m draft field middle) :
    Draft.Extends catalog (draft.enter (S.messageName m)) middle := by
  obtain ⟨before, after, infos, _, hw⟩ := h.past
  exact (walkFields_walked hw).extension

theorem inProgress (h : ComesTo S catalog strict fuel m draft field middle) :
    middle.inProgress = S.messageName m :: draft.inProgress :=
  h.extension.inProgress

end ComesTo

/-- The places at which making sure of a type halts, and how. -/
inductive Halts (S : Schema) (catalog : Catalog) (strict : Bool) :
    Nat → S.FieldType → Draft → Halt → Prop
  | exhausted (m : S.Message) (draft : Draft) :
      Halts S catalog strict 0 (.message m) draft .exhausted
  | unnamed {fuel : Nat} {m : S.Message} (h : S.messageName m = "") (draft : Draft) :
      Halts S catalog strict (fuel + 1) (.message m) draft (.rejected .emptyTypeName draft.trail)
  | mapEntry {fuel : Nat} {m : S.Message} (h : (S.message m).isMapEntry = true) (draft : Draft) :
      Halts S catalog strict (fuel + 1) (.message m) draft
        (.rejected (.malformedMapEntry (S.messageName m)) draft.trail)
  | form {fuel : Nat} {m : S.Message} {draft middle : Draft} {field : S.Field} {fault : Fault}
      (h : ComesTo S catalog strict fuel m draft field middle)
      (hf : S.form? strict (S.messageName m) field = .error fault) :
      Halts S catalog strict (fuel + 1) (.message m) draft (.rejected fault middle.trail)
  | element {fuel : Nat} {m : S.Message} {draft middle : Draft} {field : S.Field}
      {form : Form S.Message S.Enum} {inner : Halt}
      (h : ComesTo S catalog strict fuel m draft field middle)
      (hf : S.form? strict (S.messageName m) field = .ok form)
      (he : Halts S catalog strict fuel form.element middle inner) :
      Halts S catalog strict (fuel + 1) (.message m) draft
        (inner.inField (S.messageName m) field.name)
  | index {fuel : Nat} {m : S.Message} {draft middle : Draft} {infos : List FieldInfo}
      {fault : Fault} (h : Enters S catalog m draft)
      (hw : walkFields S catalog strict (walk S catalog strict fuel) (S.messageName m) 0
        (S.message m).fields (draft.enter (S.messageName m)) = .ok (infos, middle))
      (hi : MessageInfo.ofFields? (S.messageName m) infos = .error fault) :
      Halts S catalog strict (fuel + 1) (.message m) draft
        (.rejected fault (middle.leave (S.messageName m)).trail)
  | enum {fuel : Nat} {e : S.Enum} {draft : Draft} {fault : Fault}
      (h : ¬ draft.KnowsEnum catalog (S.enumName e))
      (hd : (S.enum e).describe? strict = .error fault) :
      Halts S catalog strict fuel (.enum e) draft (.rejected fault draft.trail)

theorem ensureEnum_eq_error {e : S.Enum}
    (h : ensureEnum S catalog strict e draft = .error halt) :
    ¬ draft.KnowsEnum catalog (S.enumName e) ∧
      ∃ fault, (S.enum e).describe? strict = .error fault ∧
        halt = .rejected fault draft.trail := by
  by_cases hk : draft.KnowsEnum catalog (S.enumName e)
  · rw [ensureEnum_known hk] at h
    cases h
  · rw [ensureEnum_new hk] at h
    cases hd : (S.enum e).describe? strict with
    | error fault =>
      simp only [hd, Except.error.injEq] at h
      exact ⟨hk, fault, rfl, h.symm⟩
    | ok info => simp [hd] at h

theorem halts_of_ensureElement_eq_error {type : S.FieldType}
    (hwalk : ∀ t, walk S catalog strict fuel t draft = .error halt →
      Halts S catalog strict fuel (.message t) draft halt)
    (h : ensureElement S catalog strict (walk S catalog strict fuel) type draft = .error halt) :
    Halts S catalog strict fuel type draft halt := by
  cases type with
  | scalar kind => cases h
  | message t => exact hwalk t h
  | enum e =>
    obtain ⟨hk, fault, hd, rfl⟩ := ensureEnum_eq_error h
    exact .enum hk hd

theorem halts_of_walk_eq_error (h : walk S catalog strict fuel m draft = .error halt) :
    Halts S catalog strict fuel (.message m) draft halt := by
  induction fuel generalizing m draft halt with
  | zero =>
    cases h
    exact .exhausted m draft
  | succ fuel ih =>
    rcases meeting_cases S catalog m draft with hn | ⟨hn, he⟩ | ⟨hm, hp⟩ | ⟨hm, hp, hk⟩ |
      ⟨hm, hp, hk⟩
    · rw [walk_unnamed hn] at h
      cases h
      exact .unnamed hn draft
    · rw [walk_mapEntry hn he] at h
      cases h
      exact .mapEntry he draft
    · rw [walk_inProgress hm hp] at h
      cases h
    · rw [walk_known hm hp hk] at h
      cases h
    · rw [walk_new hm hp hk, conclude_eq_error_iff] at h
      rcases h with hw | ⟨infos, middle, fault, hw, hi, rfl⟩
      · obtain ⟨before, field, after, infos, middle, hfields, hpast, hhalt⟩ :=
          walkFields_eq_error hw
        have hcomes : ComesTo S catalog strict fuel m draft field middle :=
          ⟨⟨hm, hp, hk⟩, before, after, infos, hfields, hpast⟩
        rcases hhalt with ⟨fault, hf, rfl⟩ | ⟨form, inner, hf, he, rfl⟩
        · exact .form hcomes hf
        · exact .element hcomes hf (halts_of_ensureElement_eq_error (fun t => ih) he)
      · exact .index ⟨hm, hp, hk⟩ hw hi

end MessageRegistry.Registration
