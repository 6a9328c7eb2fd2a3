import MessageRegistry.Proofs.Registration.Induction

/-!
Walks with strict and with lenient names. Names are looked at in two places only: before a field is
read, and when an enum is described. Main statement: a lenient walk goes the way of the strict one,
step by step, unless the strict one ends with a fault about names.
-/
namespace MessageRegistry

/-- Whether a fault comes down to the name of a field, or to an enum. -/
def Fault.isAboutNames (fault : Fault) : Bool :=
  match fault.rootCause with
  | .invalidFieldName _ _ | .invalidEnum _ => true
  | _ => false

namespace Registration
variable {S : Schema} {catalog : Catalog} {fuel : Nat} {m : S.Message} {draft : Draft}

/-- The strict outcome is a fault about names, or the lenient one is the same. -/
def Restricts {α : Type} (strict lenient : Except Halt α) : Prop :=
  (∃ fault trail, strict = .error (.rejected fault trail) ∧ fault.isAboutNames = true) ∨
    lenient = strict

theorem form?_restricts (owner : String) (field : S.Field) :
    S.form? true owner field = .error (.invalidFieldName owner field.name) ∨
      S.form? false owner field = S.form? true owner field := by
  by_cases hident : Name.isIdentifier field.name = true
  · exact Or.inr (by simp [Schema.form?, hident])
  · exact Or.inl (by simp [Schema.form?, hident])

theorem describe?_restricts (decl : EnumDecl) :
    decl.describe? true = .error (.invalidEnum (Name.normalize decl.name)) ∨
      decl.describe? false = decl.describe? true := by
  unfold EnumDecl.describe?
  by_cases hstrict : Name.normalize decl.name ≠ "" ∧ decl.hasProperValues true
  · have hlenient : decl.hasProperValues false := by
      simp_all [EnumDecl.hasProperValues]
    exact Or.inr (by rw [if_pos hstrict, if_pos ⟨hstrict.1, hlenient⟩])
  · exact Or.inl (if_neg hstrict)

theorem ensureEnum_restricts (e : S.Enum) (draft : Draft) :
    Restricts (ensureEnum S catalog true e draft) (ensureEnum S catalog false e draft) := by
  by_cases hk : draft.KnowsEnum catalog (S.enumName e)
  · rw [ensureEnum_known hk, ensureEnum_known hk]
    exact Or.inr rfl
  · rw [ensureEnum_new hk, ensureEnum_new hk]
    rcases describe?_restricts (S.enum e) with hfault | hsame
    · rw [hfault]
      exact Or.inl ⟨_, _, rfl, rfl⟩
    · rw [hsame]
      exact Or.inr rfl

theorem prepend_restricts {strict lenient : Except Halt (List FieldInfo × Draft)}
    (h : Restricts strict lenient) (info : FieldInfo) :
    Restricts (prepend info strict) (prepend info lenient) := by
  rcases h with ⟨fault, trail, rfl, hfault⟩ | rfl
  · exact Or.inl ⟨fault, trail, rfl, hfault⟩
  · exact Or.inr rfl

theorem conclude_restricts {strict lenient : Except Halt (List FieldInfo × Draft)}
    (h : Restricts strict lenient) (name : String) :
    Restricts (conclude name strict) (conclude name lenient) := by
  rcases h with ⟨fault, trail, rfl, hfault⟩ | rfl
  · exact Or.inl ⟨fault, trail, rfl, hfault⟩
  · exact Or.inr rfl

section Fields
variable (hE : ∀ t draft, Restricts (walk S catalog true fuel t draft)
  (walk S catalog false fuel t draft))
include hE

theorem ensureElement_restricts (type : S.FieldType) (draft : Draft) :
    Restricts (ensureElement S catalog true (walk S catalog true fuel) type draft)
      (ensureElement S catalog false (walk S catalog false fuel) type draft) := by
  cases type with
  | scalar kind => exact Or.inr rfl
  | message t => exact hE t draft
  | enum e => exact ensureEnum_restricts e draft

theorem walkFields_restricts (owner : String) (position : Nat) (fields : List S.Field)
    (draft : Draft) :
    Restricts (walkFields S catalog true (walk S catalog true fuel) owner position fields draft)
      (walkFields S catalog false (walk S catalog false fuel) owner position fields draft) := by
  induction fields generalizing position draft with
  | nil => exact Or.inr rfl
  | cons field fields ih =>
    rcases form?_restricts owner field with hfault | hread
    · exact Or.inl ⟨_, _, walkFields_of_form_error hfault, rfl⟩
    · cases hform : S.form? true owner field with
      | error fault =>
        rw [walkFields_of_form_error hform, walkFields_of_form_error (hread.trans hform)]
        exact Or.inr rfl
      | ok form =>
        have hlenient := hread.trans hform
        rcases ensureElement_restricts hE form.element draft with
          ⟨fault, trail, hstrict, hfault⟩ | hsame
        · exact Or.inl ⟨_, _, walkFields_of_element_error hform hstrict, hfault⟩
        · cases he : ensureElement S catalog true (walk S catalog true fuel) form.element draft with
          | error halt =>
            rw [walkFields_of_element_error hform he,
              walkFields_of_element_error hlenient (hsame.trans he)]
            exact Or.inr rfl
          | ok middle =>
            rw [walkFields_of_element_ok hform he,
              walkFields_of_element_ok hlenient (hsame.trans he)]
            exact prepend_restricts (ih (position + 1) middle) _

end Fields

theorem walk_restricts :
    Restricts (walk S catalog true fuel m draft) (walk S catalog false fuel m draft) := by
  induction fuel generalizing m draft with
  | zero => exact Or.inr rfl
  | succ fuel ih =>
    rcases meeting_cases S catalog m draft with hn | ⟨hn, he⟩ | ⟨hm, hp⟩ | ⟨hm, hp, hk⟩ |
      ⟨hm, hp, hk⟩
    · rw [walk_unnamed hn, walk_unnamed hn]
      exact Or.inr rfl
    · rw [walk_mapEntry hn he, walk_mapEntry hn he]
      exact Or.inr rfl
    · rw [walk_inProgress hm hp, walk_inProgress hm hp]
      exact Or.inr rfl
    · rw [walk_known hm hp hk, walk_known hm hp hk]
      exact Or.inr rfl
    · rw [walk_new hm hp hk, walk_new hm hp hk]
      exact conclude_restricts (walkFields_restricts (fun _ _ => ih) _ _ _ _) _

end Registration
end MessageRegistry
