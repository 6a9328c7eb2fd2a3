import MessageRegistry.Proofs.General
import MessageRegistry.Proofs.Registration.Acceptance

/-!
Two walks over one message type, in registrations with different catalogs. One of them skips types
that the other one describes. Main statement: as long as what only one of them knows is well formed
with all it reaches, the walks succeed together or fail with the same fault.
-/
namespace MessageRegistry

/-- Drafts of two registrations that are in the middle of the same types, and where a type that only
one of them knows is well formed. -/
structure Draft.Agrees (S : Schema) (strict : Bool) (first second : Catalog) (a b : Draft) :
    Prop where
  inProgress : a.inProgress = b.inProgress
  message : ∀ t, S.WellFormedFrom strict t ∨
    (a.Knows first (S.messageName t) ↔ b.Knows second (S.messageName t))
  enum : ∀ e, S.WellFormedEnum strict e ∨
    (a.KnowsEnum first (S.enumName e) ↔ b.KnowsEnum second (S.enumName e))

namespace Draft.Agrees
variable {S : Schema} {strict : Bool} {first second : Catalog} {a b : Draft}

theorem symm (h : Agrees S strict first second a b) : Agrees S strict second first b a :=
  ⟨h.inProgress.symm, fun t => (h.message t).imp_right Iff.symm,
    fun e => (h.enum e).imp_right Iff.symm⟩

theorem revisit (h : Agrees S strict first second a b) (name : String) :
    Agrees S strict first second (a.revisit name) (b.revisit name) :=
  ⟨h.inProgress, h.message, h.enum⟩

theorem enter (h : Agrees S strict first second a b) (name : String) :
    Agrees S strict first second (a.enter name) (b.enter name) :=
  ⟨congrArg (name :: ·) h.inProgress, h.message, h.enum⟩

theorem leave (h : Agrees S strict first second a b) (name : String) :
    Agrees S strict first second (a.leave name) (b.leave name) :=
  ⟨congrArg List.tail h.inProgress, h.message, h.enum⟩

theorem stageMessage (h : Agrees S strict first second a b) (info : MessageInfo) :
    Agrees S strict first second (a.stageMessage info) (b.stageMessage info) := by
  refine ⟨h.inProgress, fun t => ?_, h.enum⟩
  rw [knows_stageMessage, knows_stageMessage]
  exact (h.message t).imp_right fun hiff => or_congr_left hiff

theorem stageEnum (h : Agrees S strict first second a b) (info : EnumInfo) :
    Agrees S strict first second (a.stageEnum info) (b.stageEnum info) := by
  refine ⟨h.inProgress, h.message, fun e => ?_⟩
  rw [knowsEnum_stageEnum, knowsEnum_stageEnum]
  exact (h.enum e).imp_right fun hiff => or_congr_left hiff

end Draft.Agrees

namespace Registration
variable {S : Schema} {strict : Bool} {first second : Catalog} {fuel : Nat} {m : S.Message}
variable {a b final : Draft}

/-- Two outcomes that are both successes, related by `R`, or both the same fault. -/
inductive Alike {α : Type} (R : α → α → Prop) : Except Halt α → Except Halt α → Prop
  | ok {x y : α} (h : R x y) : Alike R (.ok x) (.ok y)
  | rejected (fault : Fault) (trail other : List Visit) :
      Alike R (.error (.rejected fault trail)) (.error (.rejected fault other))

theorem Alike.cases {α : Type} {R : α → α → Prop} {x y : Except Halt α} (h : Alike R x y) :
    (∃ u v, x = .ok u ∧ y = .ok v ∧ R u v) ∨
      ∃ fault trail other, x = .error (.rejected fault trail) ∧
        y = .error (.rejected fault other) := by
  cases h with
  | @ok u v h => exact Or.inl ⟨u, v, rfl, rfl, h⟩
  | rejected fault trail other => exact Or.inr ⟨fault, trail, other, rfl, rfl⟩

/-- Fields walked twice give the same descriptions. -/
def FieldsAgree (S : Schema) (strict : Bool) (first second : Catalog)
    (x y : List FieldInfo × Draft) : Prop :=
  x.1 = y.1 ∧ Draft.Agrees S strict first second x.2 y.2

theorem prepend_alike {info : FieldInfo} {x y : Except Halt (List FieldInfo × Draft)}
    (h : Alike (FieldsAgree S strict first second) x y) :
    Alike (FieldsAgree S strict first second) (prepend info x) (prepend info y) := by
  cases h with
  | rejected fault trail other => exact .rejected fault _ _
  | @ok x y h => exact .ok ⟨congrArg (info :: ·) h.1, h.2⟩

theorem conclude_alike {name : String} {x y : Except Halt (List FieldInfo × Draft)}
    (h : Alike (FieldsAgree S strict first second) x y) :
    Alike (Draft.Agrees S strict first second) (conclude name x) (conclude name y) := by
  cases h with
  | rejected fault trail other => exact .rejected fault _ _
  | @ok x y h =>
    obtain ⟨infos, a⟩ := x
    obtain ⟨others, b⟩ := y
    obtain ⟨rfl, h⟩ := h
    simp only [conclude]
    cases MessageInfo.ofFields? name infos with
    | error fault => exact .rejected fault _ _
    | ok info => exact .ok ((h.leave name).stageMessage info)

/-- The second walk alone describes a type that is well formed with all it reaches. -/
theorem agrees_of_walk (hd : S.NamesDistinct) (h : Draft.Agrees S strict first second a b)
    (hwf : S.WellFormedFrom strict m) (hw : walk S second strict fuel m b = .ok final) :
    Draft.Agrees S strict first second a final := by
  have hext := (walk_walked hw).extension
  have hgains := walk_gains hw .refl
  refine ⟨h.inProgress.trans hext.inProgress.symm, fun t => ?_, fun e => ?_⟩
  · apply or_iff_of_gain (h.message t) (hext.knows _)
    intro hk
    rcases hgains.knows hk with hb | ⟨u, hu, hut⟩
    · exact Or.inl hb
    · obtain rfl := hd.message u t hut
      exact Or.inr (hwf.of_reaches hu)
  · apply or_iff_of_gain (h.enum e) (hext.knowsEnum _)
    intro hk
    rcases hgains.knowsEnum hk with hb | ⟨u, hu, hue⟩
    · exact Or.inl hb
    · obtain rfl := hd.enum u e hue
      exact Or.inr (hwf.2 u hu)

/-- The second walk alone describes a well-formed enum. -/
theorem agrees_of_stageEnum (hd : S.NamesDistinct) (h : Draft.Agrees S strict first second a b)
    {e : S.Enum} (hwf : S.WellFormedEnum strict e) :
    Draft.Agrees S strict first second a (b.stageEnum (S.enum e).describe) := by
  refine ⟨h.inProgress, h.message, fun other => ?_⟩
  apply or_iff_of_gain (h.enum other)
  · exact fun hk => Draft.knowsEnum_stageEnum.mpr (Or.inl hk)
  · intro hk
    rcases Draft.knowsEnum_stageEnum.mp hk with hb | hn
    · exact Or.inl hb
    · obtain rfl := hd.enum e other hn
      exact Or.inr hwf

theorem ensureEnum_alike (hd : S.NamesDistinct) (h : Draft.Agrees S strict first second a b)
    (e : S.Enum) :
    Alike (Draft.Agrees S strict first second) (ensureEnum S first strict e a)
      (ensureEnum S second strict e b) := by
  by_cases ha : a.KnowsEnum first (S.enumName e)
  · rw [ensureEnum_known ha]
    by_cases hb : b.KnowsEnum second (S.enumName e)
    · rw [ensureEnum_known hb]
      exact .ok h
    · have hwf := (h.enum e).resolve_right fun hiff => hb (hiff.mp ha)
      rw [ensureEnum_new hb, Schema.describe?_eq_ok_iff.mpr ⟨hwf, rfl⟩]
      exact .ok (agrees_of_stageEnum hd h hwf)
  · by_cases hb : b.KnowsEnum second (S.enumName e)
    · have hwf := (h.enum e).resolve_right fun hiff => ha (hiff.mpr hb)
      rw [ensureEnum_known hb, ensureEnum_new ha, Schema.describe?_eq_ok_iff.mpr ⟨hwf, rfl⟩]
      exact .ok (agrees_of_stageEnum hd h.symm hwf).symm
    · rw [ensureEnum_new ha, ensureEnum_new hb]
      cases (S.enum e).describe? strict with
      | error fault => exact .rejected fault _ _
      | ok info => exact .ok (h.stageEnum info)

theorem ensureElement_alike (hd : S.NamesDistinct) (h : Draft.Agrees S strict first second a b)
    (hE : ∀ t, Alike (Draft.Agrees S strict first second) (walk S first strict fuel t a)
      (walk S second strict fuel t b)) (type : S.FieldType) :
    Alike (Draft.Agrees S strict first second)
      (ensureElement S first strict (walk S first strict fuel) type a)
      (ensureElement S second strict (walk S second strict fuel) type b) := by
  cases type with
  | scalar kind => exact .ok h
  | message t => exact hE t
  | enum e => exact ensureEnum_alike hd h e

theorem walkFields_alike (hd : S.NamesDistinct) (h : Draft.Agrees S strict first second a b)
    (hE : ∀ t x y, x.inProgress = a.inProgress → Draft.Agrees S strict first second x y →
      Alike (Draft.Agrees S strict first second) (walk S first strict fuel t x)
        (walk S second strict fuel t y))
    (owner : String) (position : Nat) (fields : List S.Field) :
    Alike (FieldsAgree S strict first second)
      (walkFields S first strict (walk S first strict fuel) owner position fields a)
      (walkFields S second strict (walk S second strict fuel) owner position fields b) := by
  induction fields generalizing position a b with
  | nil => exact .ok ⟨rfl, h⟩
  | cons field fields ih =>
    cases hf : S.form? strict owner field with
    | error fault =>
      rw [walkFields_of_form_error hf, walkFields_of_form_error hf]
      exact .rejected fault _ _
    | ok form =>
      have helement := ensureElement_alike hd h (fun t => hE t a b rfl h) form.element
      rcases helement.cases with ⟨x, y, hx, hy, hxy⟩ | ⟨fault, trail, other, hx, hy⟩
      · have hp : x.inProgress = a.inProgress :=
          (ensured_of_ensureElement_eq_ok (fun _ _ _ => walk_walked) hx).extension.inProgress
        rw [walkFields_of_element_ok hf hx, walkFields_of_element_ok hf hy]
        exact prepend_alike (ih hxy (fun t u v hu => hE t u v (hu.trans hp)) (position + 1))
      · rw [walkFields_of_element_error hf hx, walkFields_of_element_error hf hy]
        exact .rejected (.inField owner field.name fault) _ _

/-- Walks from agreeing drafts end alike, though each may skip what only it knows. -/
theorem walk_alike (hd : S.NamesDistinct) (hfit : Fits S fuel a.inProgress)
    (h : Draft.Agrees S strict first second a b) :
    Alike (Draft.Agrees S strict first second) (walk S first strict fuel m a)
      (walk S second strict fuel m b) := by
  induction fuel generalizing m a b with
  | zero => exact absurd rfl hfit.ne_zero
  | succ fuel ih =>
    rcases meeting_cases S first m a with hn | ⟨hn, he⟩ | ⟨hm, hp⟩ | ⟨hm, hp, ha⟩ | ⟨hm, hp, ha⟩
    · rw [walk_unnamed hn, walk_unnamed hn]
      exact .rejected _ _ _
    · rw [walk_mapEntry hn he, walk_mapEntry hn he]
      exact .rejected _ _ _
    · rw [walk_inProgress hm hp, walk_inProgress hm (by rwa [← h.inProgress])]
      exact .ok (h.revisit _)
    · have hq : S.messageName m ∉ b.inProgress := by rwa [← h.inProgress]
      rw [walk_known hm hp ha]
      by_cases hb : b.Knows second (S.messageName m)
      · rw [walk_known hm hq hb]
        exact .ok h
      -- only the first walk skips the type; the second one cannot fail, and what it drafts is
      -- well formed
      · have hwf := (h.message m).resolve_right fun hiff => hb (hiff.mp ha)
        obtain ⟨final, hw⟩ := walk_isOk hwf (by rwa [← h.inProgress])
        rw [hw]
        exact .ok (agrees_of_walk hd h hwf hw)
    · have hq : S.messageName m ∉ b.inProgress := by rwa [← h.inProgress]
      by_cases hb : b.Knows second (S.messageName m)
      · have hwf := (h.message m).resolve_right fun hiff => ha (hiff.mpr hb)
        obtain ⟨final, hw⟩ := walk_isOk hwf hfit
        rw [hw, walk_known hm hq hb]
        exact .ok (agrees_of_walk hd h.symm hwf hw).symm
      · rw [walk_new hm hp ha, walk_new hm hq hb]
        apply conclude_alike
        apply walkFields_alike hd (h.enter _)
        intro t x y hx hxy
        exact ih (by rw [hx]; exact hfit.enter hp) hxy

end Registration
end MessageRegistry
