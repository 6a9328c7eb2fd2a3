import MessageRegistry.Registration

/-!
Walks, one step at a time. A walk meets a message type in one of three ways: in progress, known, or
new. Main statements: what it does in each case, and induction along the walks that succeed.
-/
namespace MessageRegistry

namespace Draft

/-- The message type of that name is published or drafted. -/
def Knows (catalog : Catalog) (draft : Draft) (typeName : String) : Prop :=
  catalog.messages.contains typeName = true ∨ draft.messages.contains typeName = true

def KnowsEnum (catalog : Catalog) (draft : Draft) (enumName : String) : Prop :=
  catalog.enums.contains enumName = true ∨ draft.enums.contains enumName = true

end Draft

/-- What a walk asks of a message type before it looks at the fields. -/
structure Schema.Describable (S : Schema) (m : S.Message) : Prop where
  named : S.messageName m ≠ ""
  not_entry : (S.message m).isMapEntry = false

namespace Registration
variable {S : Schema} {catalog : Catalog} {strict : Bool} {fuel : Nat} {m : S.Message}
variable {draft final : Draft}

/-- The end of a message type's description, once its fields have been walked. -/
def conclude (name : String) : Except Halt (List FieldInfo × Draft) → Except Halt Draft
  | .error halt => .error halt
  | .ok (infos, draft) =>
    match MessageInfo.ofFields? name infos with
    | .error fault => .error (.rejected fault (draft.leave name).trail)
    | .ok info => .ok ((draft.leave name).stageMessage info)

/-- The descriptions of fields, behind that of the field before them. -/
def prepend (info : FieldInfo) :
    Except Halt (List FieldInfo × Draft) → Except Halt (List FieldInfo × Draft)
  | .error halt => .error halt
  | .ok (infos, draft) => .ok (info :: infos, draft)

theorem prepend_eq_ok_iff {info : FieldInfo} {walked : Except Halt (List FieldInfo × Draft)}
    {infos : List FieldInfo} :
    prepend info walked = .ok (infos, final) ↔
      ∃ rest, walked = .ok (rest, final) ∧ infos = info :: rest := by
  rcases walked with halt | ⟨rest, draft⟩
  · simp [prepend]
  · simp only [prepend, Except.ok.injEq, Prod.mk.injEq]
    constructor
    · rintro ⟨rfl, rfl⟩
      exact ⟨rest, ⟨rfl, rfl⟩, rfl⟩
    · rintro ⟨_, ⟨rfl, rfl⟩, rfl⟩
      exact ⟨rfl, rfl⟩

theorem conclude_eq_ok_iff {name : String} {walked : Except Halt (List FieldInfo × Draft)} :
    conclude name walked = .ok final ↔
      ∃ infos draft info, walked = .ok (infos, draft) ∧
        MessageInfo.ofFields? name infos = .ok info ∧
        final = (draft.leave name).stageMessage info := by
  constructor
  · intro h
    rcases walked with halt | ⟨infos, draft⟩
    · simp [conclude] at h
    · cases hi : MessageInfo.ofFields? name infos with
      | error fault => simp [conclude, hi] at h
      | ok info =>
        simp only [conclude, hi, Except.ok.injEq] at h
        exact ⟨infos, draft, info, rfl, hi, h.symm⟩
  · rintro ⟨infos, draft, info, rfl, hi, rfl⟩
    simp [conclude, hi]

theorem conclude_eq_error_iff {name : String} {walked : Except Halt (List FieldInfo × Draft)}
    {halt : Halt} :
    conclude name walked = .error halt ↔
      walked = .error halt ∨ ∃ infos draft fault, walked = .ok (infos, draft) ∧
        MessageInfo.ofFields? name infos = .error fault ∧
        halt = .rejected fault (draft.leave name).trail := by
  rcases walked with other | ⟨infos, draft⟩
  · simp [conclude]
  · cases hi : MessageInfo.ofFields? name infos with
    | error fault =>
      simp only [conclude, hi, Except.error.injEq, reduceCtorEq, false_or, Except.ok.injEq,
        Prod.mk.injEq]
      constructor
      · rintro rfl
        exact ⟨infos, draft, fault, ⟨rfl, rfl⟩, hi, rfl⟩
      · rintro ⟨_, _, other, ⟨rfl, rfl⟩, ho, rfl⟩
        rw [hi] at ho
        cases ho
        rfl
    | ok info => simp [conclude, hi]

theorem prepend_eq_error_iff {info : FieldInfo} {walked : Except Halt (List FieldInfo × Draft)}
    {halt : Halt} : prepend info walked = .error halt ↔ walked = .error halt := by
  rcases walked with other | ⟨infos, draft⟩ <;> simp [prepend]

theorem walk_unnamed (h : S.messageName m = "") :
    walk S catalog strict (fuel + 1) m draft = .error (.rejected .emptyTypeName draft.trail) := by
  simp [walk, h]

theorem walk_mapEntry (hn : S.messageName m ≠ "") (h : (S.message m).isMapEntry = true) :
    walk S catalog strict (fuel + 1) m draft =
      .error (.rejected (.malformedMapEntry (S.messageName m)) draft.trail) := by
  simp [walk, hn, h]

theorem walk_inProgress (hm : S.Describable m) (h : S.messageName m ∈ draft.inProgress) :
    walk S catalog strict (fuel + 1) m draft = .ok (draft.revisit (S.messageName m)) := by
  simp [walk, hm.named, hm.not_entry, h]

theorem walk_known (hm : S.Describable m) (hp : S.messageName m ∉ draft.inProgress)
    (h : draft.Knows catalog (S.messageName m)) :
    walk S catalog strict (fuel + 1) m draft = .ok draft := by
  have hk : (catalog.messages.contains (S.messageName m) ||
      draft.messages.contains (S.messageName m)) = true := by simpa [Draft.Knows] using h
  simp [walk, hm.named, hm.not_entry, hp, hk]

theorem walk_new (hm : S.Describable m) (hp : S.messageName m ∉ draft.inProgress)
    (h : ¬ draft.Knows catalog (S.messageName m)) :
    walk S catalog strict (fuel + 1) m draft =
      conclude (S.messageName m) (walkFields S catalog strict (walk S catalog strict fuel)
        (S.messageName m) 0 (S.message m).fields (draft.enter (S.messageName m))) := by
  have hk : (catalog.messages.contains (S.messageName m) ||
      draft.messages.contains (S.messageName m)) = false := by simpa [Draft.Knows] using h
  simp only [walk, hm.named, hm.not_entry, hp, hk, if_false, Bool.false_eq_true]
  rfl

/-- The five ways in which a walk meets a message type. -/
theorem meeting_cases (S : Schema) (catalog : Catalog) (m : S.Message) (draft : Draft) :
    S.messageName m = "" ∨
      S.messageName m ≠ "" ∧ (S.message m).isMapEntry = true ∨
      S.Describable m ∧ S.messageName m ∈ draft.inProgress ∨
      S.Describable m ∧ S.messageName m ∉ draft.inProgress ∧
        draft.Knows catalog (S.messageName m) ∨
      S.Describable m ∧ S.messageName m ∉ draft.inProgress ∧
        ¬ draft.Knows catalog (S.messageName m) := by
  by_cases hn : S.messageName m = ""
  · exact Or.inl hn
  · by_cases he : (S.message m).isMapEntry = true
    · exact Or.inr (Or.inl ⟨hn, he⟩)
    · have hm : S.Describable m := ⟨hn, by simpa using he⟩
      by_cases hp : S.messageName m ∈ draft.inProgress
      · exact Or.inr (Or.inr (Or.inl ⟨hm, hp⟩))
      · by_cases hk : draft.Knows catalog (S.messageName m)
        · exact Or.inr (Or.inr (Or.inr (Or.inl ⟨hm, hp, hk⟩)))
        · exact Or.inr (Or.inr (Or.inr (Or.inr ⟨hm, hp, hk⟩)))

theorem describable_of_walk_eq_ok (h : walk S catalog strict fuel m draft = .ok final) :
    S.Describable m := by
  cases fuel with
  | zero => simp [walk] at h
  | succ fuel =>
    by_cases hn : S.messageName m = ""
    · rw [walk_unnamed hn] at h
      cases h
    · by_cases he : (S.message m).isMapEntry = true
      · rw [walk_mapEntry hn he] at h
        cases h
      · exact ⟨hn, by simpa using he⟩

theorem ensureEnum_known {e : S.Enum} (h : draft.KnowsEnum catalog (S.enumName e)) :
    ensureEnum S catalog strict e draft = .ok draft := by
  have hk : (catalog.enums.contains (S.enumName e) ||
      draft.enums.contains (S.enumName e)) = true := by simpa [Draft.KnowsEnum] using h
  simp [ensureEnum, hk]

theorem ensureEnum_new {e : S.Enum} (h : ¬ draft.KnowsEnum catalog (S.enumName e)) :
    ensureEnum S catalog strict e draft =
      match (S.enum e).describe? strict with
      | .error fault => .error (.rejected fault draft.trail)
      | .ok info => .ok (draft.stageEnum info) := by
  have hk : (catalog.enums.contains (S.enumName e) ||
      draft.enums.contains (S.enumName e)) = false := by simpa [Draft.KnowsEnum] using h
  exact if_neg (Bool.eq_false_iff.mp hk)

/-- What making sure of an element's type does to a draft, where `P` tells what a message type
does to it. -/
inductive Ensured (S : Schema) (catalog : Catalog) (strict : Bool)
    (P : S.Message → Draft → Draft → Prop) : S.FieldType → Draft → Draft → Prop
  | scalar (kind : ScalarKind) (draft : Draft) :
      Ensured S catalog strict P (.scalar kind) draft draft
  | message {t : S.Message} {draft final : Draft} (h : P t draft final) :
      Ensured S catalog strict P (.message t) draft final
  | knownEnum {e : S.Enum} {draft : Draft} (h : draft.KnowsEnum catalog (S.enumName e)) :
      Ensured S catalog strict P (.enum e) draft draft
  | newEnum {e : S.Enum} {draft : Draft} {info : EnumInfo}
      (hn : ¬ draft.KnowsEnum catalog (S.enumName e))
      (h : (S.enum e).describe? strict = .ok info) :
      Ensured S catalog strict P (.enum e) draft (draft.stageEnum info)

theorem ensured_of_ensureElement_eq_ok {ensure : S.Message → Draft → Except Halt Draft}
    {P : S.Message → Draft → Draft → Prop}
    (hP : ∀ t draft final, ensure t draft = .ok final → P t draft final) {type : S.FieldType}
    (h : ensureElement S catalog strict ensure type draft = .ok final) :
    Ensured S catalog strict P type draft final := by
  cases type with
  | scalar kind =>
    cases h
    exact .scalar kind draft
  | message t => exact .message (hP t draft final h)
  | enum e =>
    simp only [ensureElement] at h
    by_cases hk : draft.KnowsEnum catalog (S.enumName e)
    · rw [ensureEnum_known hk] at h
      cases h
      exact .knownEnum hk
    · rw [ensureEnum_new hk] at h
      cases hd : (S.enum e).describe? strict with
      | error fault => simp [hd] at h
      | ok info =>
        simp only [hd, Except.ok.injEq] at h
        subst h
        exact .newEnum hk hd

section Fields
variable {ensure : S.Message → Draft → Except Halt Draft} {owner : String} {position : Nat}
variable {field : S.Field} {fields : List S.Field} {form : Form S.Message S.Enum}

theorem walkFields_of_form_error {fault : Fault} (hf : S.form? strict owner field = .error fault) :
    walkFields S catalog strict ensure owner position (field :: fields) draft =
      .error (.rejected fault draft.trail) := by
  simp [walkFields, walkField, hf]

theorem walkFields_of_element_error {halt : Halt} (hf : S.form? strict owner field = .ok form)
    (he : ensureElement S catalog strict ensure form.element draft = .error halt) :
    walkFields S catalog strict ensure owner position (field :: fields) draft =
      .error (halt.inField owner field.name) := by
  simp [walkFields, walkField, hf, he]

theorem walkFields_of_element_ok {middle : Draft} (hf : S.form? strict owner field = .ok form)
    (he : ensureElement S catalog strict ensure form.element draft = .ok middle) :
    walkFields S catalog strict ensure owner position (field :: fields) draft =
      prepend (S.describeField position field form)
        (walkFields S catalog strict ensure owner (position + 1) fields middle) := by
  simp only [walkFields, walkField, hf, he]
  rfl

theorem walkFields_cons_eq_ok {infos : List FieldInfo}
    (h : walkFields S catalog strict ensure owner position (field :: fields) draft =
      .ok (infos, final)) :
    ∃ form middle rest, S.form? strict owner field = .ok form ∧
      ensureElement S catalog strict ensure form.element draft = .ok middle ∧
      walkFields S catalog strict ensure owner (position + 1) fields middle = .ok (rest, final) ∧
      infos = S.describeField position field form :: rest := by
  cases hf : S.form? strict owner field with
  | error fault =>
    rw [walkFields_of_form_error hf] at h
    cases h
  | ok form =>
    cases he : ensureElement S catalog strict ensure form.element draft with
    | error halt =>
      rw [walkFields_of_element_error hf he] at h
      cases h
    | ok middle =>
      rw [walkFields_of_element_ok hf he, prepend_eq_ok_iff] at h
      obtain ⟨rest, hr, rfl⟩ := h
      exact ⟨form, middle, rest, rfl, he, hr, rfl⟩

end Fields

section Induction
variable {P : S.Message → Draft → Draft → Prop}
variable {F : String → Nat → List S.Field → Draft → List FieldInfo → Draft → Prop}

theorem walkFields_induction {ensure : S.Message → Draft → Except Halt Draft}
    (hP : ∀ t draft final, ensure t draft = .ok final → P t draft final)
    (nil : ∀ owner position draft, F owner position [] draft [] draft)
    (cons : ∀ owner position field fields form draft middle infos final,
      S.form? strict owner field = .ok form →
      Ensured S catalog strict P form.element draft middle →
      F owner (position + 1) fields middle infos final →
      F owner position (field :: fields) draft (S.describeField position field form :: infos) final)
    {owner : String} {position : Nat} {fields : List S.Field} {infos : List FieldInfo}
    (h : walkFields S catalog strict ensure owner position fields draft = .ok (infos, final)) :
    F owner position fields draft infos final := by
  induction fields generalizing position draft infos with
  | nil =>
    simp only [walkFields, Except.ok.injEq, Prod.mk.injEq] at h
    obtain ⟨rfl, rfl⟩ := h
    exact nil owner position draft
  | cons field fields ih =>
    obtain ⟨form, middle, rest, hf, he, hr, rfl⟩ := walkFields_cons_eq_ok h
    exact cons _ _ _ _ _ _ _ _ _ hf (ensured_of_ensureElement_eq_ok hP he) (ih hr)

/-- Induction along successful walks: `P` tells what a message type does to a draft, and `F` what a
list of fields does. -/
theorem walk_induction
    (revisit : ∀ m draft, S.Describable m → S.messageName m ∈ draft.inProgress →
      P m draft (draft.revisit (S.messageName m)))
    (known : ∀ m draft, S.Describable m → S.messageName m ∉ draft.inProgress →
      draft.Knows catalog (S.messageName m) → P m draft draft)
    (describe : ∀ m draft infos middle info, S.Describable m →
      S.messageName m ∉ draft.inProgress → ¬ draft.Knows catalog (S.messageName m) →
      F (S.messageName m) 0 (S.message m).fields (draft.enter (S.messageName m)) infos middle →
      MessageInfo.ofFields? (S.messageName m) infos = .ok info →
      P m draft ((middle.leave (S.messageName m)).stageMessage info))
    (nil : ∀ owner position draft, F owner position [] draft [] draft)
    (cons : ∀ owner position field fields form draft middle infos final,
      S.form? strict owner field = .ok form →
      Ensured S catalog strict P form.element draft middle →
      F owner (position + 1) fields middle infos final →
      F owner position (field :: fields) draft (S.describeField position field form :: infos) final)
    (h : walk S catalog strict fuel m draft = .ok final) : P m draft final := by
  induction fuel generalizing m draft final with
  | zero => simp [walk] at h
  | succ fuel ih =>
    have hm := describable_of_walk_eq_ok h
    by_cases hp : S.messageName m ∈ draft.inProgress
    · rw [walk_inProgress hm hp] at h
      cases h
      exact revisit m draft hm hp
    · by_cases hk : draft.Knows catalog (S.messageName m)
      · rw [walk_known hm hp hk] at h
        cases h
        exact known m draft hm hp hk
      · rw [walk_new hm hp hk] at h
        obtain ⟨infos, middle, info, hw, hi, rfl⟩ := conclude_eq_ok_iff.mp h
        have hP : ∀ t draft final, walk S catalog strict fuel t draft = .ok final →
            P t draft final := fun t draft final ht => ih ht
        exact describe m draft infos middle info hm hp hk (walkFields_induction hP nil cons hw) hi

end Induction
end Registration
end MessageRegistry
