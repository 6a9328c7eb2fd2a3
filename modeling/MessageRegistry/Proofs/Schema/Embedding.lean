import MessageRegistry.Proofs.Registration.Fuel
import MessageRegistry.Registry.Register

/-!
A schema inside another one. Main statements: walks and registrations do not tell an embedded type
from the original, and the well-known types are embedded in every schema.
-/
namespace MessageRegistry

section References
variable {M E M' E' : Type}

def FieldType.mapRefs (f : M → M') (g : E → E') : FieldType M E → FieldType M' E'
  | .scalar kind => .scalar kind
  | .message target => .message (f target)
  | .enum target => .enum (g target)

def FieldDecl.mapRefs (f : M → M') (g : E → E') (field : FieldDecl M E) : FieldDecl M' E' :=
  ⟨field.name, field.number, field.type.mapRefs f g, field.label, field.oneof⟩

def Form.mapRefs (f : M → M') (g : E → E') : Form M E → Form M' E'
  | .single element => .single (element.mapRefs f g)
  | .list element => .list (element.mapRefs f g)
  | .map key value => .map key (value.mapRefs f g)

variable (f : M → M') (g : E → E')

theorem Form.element_mapRefs (form : Form M E) :
    (form.mapRefs f g).element = form.element.mapRefs f g := by
  cases form <;> rfl

theorem FieldDecl.plainForm_mapRefs (field : FieldDecl M E) :
    (field.mapRefs f g).plainForm = field.plainForm.mapRefs f g := by
  cases h : field.isRepeated <;>
    simp_all [FieldDecl.plainForm, FieldDecl.mapRefs, FieldDecl.isRepeated, Form.mapRefs]

end References

namespace Schema

/-- A schema's types found in another schema, under the same names and with the same fields. -/
structure Embedding (T S : Schema) where
  message : T.Message → S.Message
  enum : T.Enum → S.Enum
  messageName : ∀ m, S.messageName (message m) = T.messageName m
  isMapEntry : ∀ m, (S.message (message m)).isMapEntry = (T.message m).isMapEntry
  fields : ∀ m, (S.message (message m)).fields =
    (T.message m).fields.map (·.mapRefs message enum)
  enumName : ∀ e, S.enumName (enum e) = T.enumName e
  values : ∀ e, (S.enum (enum e)).values = (T.enum e).values

/-- The well-known types in any schema. -/
def wellKnown (S : Schema) : Embedding .empty S where
  message
    | .wellKnown message => .wellKnown message
    | .declared index => index.elim0
  enum
    | .nullValue => .nullValue
    | .declared index => index.elim0
  messageName
    | .wellKnown message => by cases message <;> rfl
    | .declared index => index.elim0
  isMapEntry
    | .wellKnown message => by cases message <;> rfl
    | .declared index => index.elim0
  fields
    | .wellKnown message => by cases message <;> rfl
    | .declared index => index.elim0
  enumName
    | .nullValue => rfl
    | .declared index => index.elim0
  values
    | .nullValue => rfl
    | .declared index => index.elim0

namespace Embedding
variable {T S : Schema} (φ : Embedding T S) {strict : Bool}

theorem elementOf (type : T.FieldType) :
    S.elementOf (type.mapRefs φ.message φ.enum) = T.elementOf type := by
  cases type <;> simp [FieldType.mapRefs, Schema.elementOf, φ.messageName, φ.enumName]

theorem describeField (position : Nat) (field : T.Field) (form : Form T.Message T.Enum) :
    S.describeField position (field.mapRefs φ.message φ.enum)
      (form.mapRefs φ.message φ.enum) = T.describeField position field form := by
  cases form <;>
    simp [Schema.describeField, FieldDecl.mapRefs, Form.mapRefs, Form.element, Form.isMap,
      Form.isRepeated, Form.type, φ.elementOf]

theorem mapForm? (owner : String) (field : T.Field) (entry : T.Message) :
    (field.mapRefs φ.message φ.enum).mapForm? owner (S.message (φ.message entry)) =
      (field.mapForm? owner (T.message entry)).map (Form.mapRefs φ.message φ.enum) := by
  have hname : Name.normalize (S.message (φ.message entry)).name =
      Name.normalize (T.message entry).name := φ.messageName entry
  have hfields := φ.fields entry
  match hf : (T.message entry).fields with
  | [] | [_] | _ :: _ :: _ :: _ =>
    simp [FieldDecl.mapForm?, hfields, hf, hname, Except.map]
  | [key, value] =>
    simp only [FieldDecl.mapForm?, hfields, hf, hname, List.map_cons, List.map_nil]
    by_cases hproper : key.name = "key" ∧ value.name = "value" ∧ (!key.isRepeated) = true ∧
        (!value.isRepeated) = true
    · have hmapped : (key.mapRefs φ.message φ.enum).name = "key" ∧
          (value.mapRefs φ.message φ.enum).name = "value" ∧
          (!(key.mapRefs φ.message φ.enum).isRepeated) = true ∧
          (!(value.mapRefs φ.message φ.enum).isRepeated) = true := hproper
      rw [if_pos hproper, if_pos hmapped]
      cases ht : key.type with
      | scalar kind =>
        by_cases hk : kind.isMapKey <;>
          simp [FieldDecl.mapRefs, ht, FieldType.mapRefs, hk, Except.map, Form.mapRefs]
      | message target => simp [FieldDecl.mapRefs, ht, FieldType.mapRefs, Except.map]
      | enum target => simp [FieldDecl.mapRefs, ht, FieldType.mapRefs, Except.map]
    · have hmapped : ¬ ((key.mapRefs φ.message φ.enum).name = "key" ∧
          (value.mapRefs φ.message φ.enum).name = "value" ∧
          (!(key.mapRefs φ.message φ.enum).isRepeated) = true ∧
          (!(value.mapRefs φ.message φ.enum).isRepeated) = true) := hproper
      rw [if_neg hproper, if_neg hmapped]
      rfl

theorem form? (owner : String) (field : T.Field) :
    S.form? strict owner (field.mapRefs φ.message φ.enum) =
      (T.form? strict owner field).map (Form.mapRefs φ.message φ.enum) := by
  have hplain := FieldDecl.plainForm_mapRefs φ.message φ.enum field
  have hname : (field.mapRefs φ.message φ.enum).name = field.name := rfl
  have htype : (field.mapRefs φ.message φ.enum).type = field.type.mapRefs φ.message φ.enum := rfl
  have hrepeated : (field.mapRefs φ.message φ.enum).isRepeated = field.isRepeated := rfl
  by_cases hs : (strict && !Name.isIdentifier field.name) = true
  · simp [Schema.form?, hname, hs, Except.map]
  · cases ht : field.type with
    | message target =>
      by_cases he : (T.message target).isMapEntry = true
      · by_cases hr : field.isRepeated = true
        · simp [Schema.form?, hname, htype, ht, FieldType.mapRefs, φ.isMapEntry, hs, he, hr,
            hrepeated, φ.mapForm?]
        · simp [Schema.form?, hname, htype, ht, FieldType.mapRefs, φ.isMapEntry, hs, he, hr,
            hrepeated, φ.messageName, Except.map]
      · simp [Schema.form?, hname, htype, ht, FieldType.mapRefs, φ.isMapEntry, hs, he, hplain,
          Except.map]
    | scalar kind =>
      simp [Schema.form?, hname, htype, ht, FieldType.mapRefs, hs, hplain, Except.map]
    | enum target =>
      simp [Schema.form?, hname, htype, ht, FieldType.mapRefs, hs, hplain, Except.map]

theorem describe? (e : T.Enum) :
    (S.enum (φ.enum e)).describe? strict = (T.enum e).describe? strict := by
  have hname : Name.normalize (S.enum (φ.enum e)).name = Name.normalize (T.enum e).name :=
    φ.enumName e
  unfold EnumDecl.describe? EnumDecl.describe EnumDecl.hasProperValues
  rw [hname, φ.values]

theorem ensureEnum {catalog : Catalog} (e : T.Enum) (draft : Draft) :
    Registration.ensureEnum S catalog strict (φ.enum e) draft =
      Registration.ensureEnum T catalog strict e draft := by
  simp only [Registration.ensureEnum, φ.enumName, φ.describe?]

section Walk
variable {catalog : Catalog} {f : S.Message → Draft → Except Halt Draft}
variable {g : T.Message → Draft → Except Halt Draft}

theorem ensureElement (hE : ∀ t draft, f (φ.message t) draft = g t draft) (type : T.FieldType)
    (draft : Draft) :
    Registration.ensureElement S catalog strict f (type.mapRefs φ.message φ.enum) draft =
      Registration.ensureElement T catalog strict g type draft := by
  cases type with
  | scalar kind => rfl
  | message t => exact hE t draft
  | enum e => exact φ.ensureEnum e draft

theorem walkFields (hE : ∀ t draft, f (φ.message t) draft = g t draft) (owner : String)
    (position : Nat) (fields : List T.Field) (draft : Draft) :
    Registration.walkFields S catalog strict f owner position
        (fields.map (·.mapRefs φ.message φ.enum)) draft =
      Registration.walkFields T catalog strict g owner position fields draft := by
  induction fields generalizing position draft with
  | nil => rfl
  | cons field fields ih =>
    rw [List.map_cons]
    cases hf : T.form? strict owner field with
    | error fault =>
      rw [Registration.walkFields_of_form_error hf, Registration.walkFields_of_form_error
        (by rw [φ.form?, hf]; rfl)]
    | ok form =>
      have hform : S.form? strict owner (field.mapRefs φ.message φ.enum) =
          .ok (form.mapRefs φ.message φ.enum) := by
        rw [φ.form?, hf]
        rfl
      have helement : Registration.ensureElement S catalog strict f
          (form.mapRefs φ.message φ.enum).element draft =
            Registration.ensureElement T catalog strict g form.element draft := by
        rw [Form.element_mapRefs]
        exact φ.ensureElement hE form.element draft
      cases he : Registration.ensureElement T catalog strict g form.element draft with
      | error halt =>
        rw [Registration.walkFields_of_element_error hf he,
          Registration.walkFields_of_element_error hform (helement.trans he)]
        rfl
      | ok middle =>
        rw [Registration.walkFields_of_element_ok hf he,
          Registration.walkFields_of_element_ok hform (helement.trans he), ih, φ.describeField]

theorem walk (fuel : Nat) (m : T.Message) (draft : Draft) :
    Registration.walk S catalog strict fuel (φ.message m) draft =
      Registration.walk T catalog strict fuel m draft := by
  induction fuel generalizing m draft with
  | zero => rfl
  | succ fuel ih =>
    simp only [Registration.walk, φ.messageName, φ.isMapEntry, φ.fields]
    rw [φ.walkFields ih]

/-- Both walks have enough fuel, though not the same amount of it. -/
theorem draftMessage (m : T.Message) :
    Registration.draftMessage S catalog strict (φ.message m) =
      Registration.draftMessage T catalog strict m := by
  have hs : Registration.walk S catalog strict
      (Registration.enoughFuel S + Registration.enoughFuel T) (φ.message m) .empty =
        Registration.draftMessage S catalog strict (φ.message m) :=
    Registration.walk_add_fuel Registration.draftMessage_ne_exhausted (Registration.enoughFuel T)
  have ht : Registration.walk T catalog strict
      (Registration.enoughFuel T + Registration.enoughFuel S) m .empty =
        Registration.draftMessage T catalog strict m :=
    Registration.walk_add_fuel Registration.draftMessage_ne_exhausted (Registration.enoughFuel S)
  calc Registration.draftMessage S catalog strict (φ.message m)
      = Registration.walk S catalog strict
          (Registration.enoughFuel S + Registration.enoughFuel T) (φ.message m) .empty := hs.symm
    _ = Registration.walk T catalog strict
          (Registration.enoughFuel T + Registration.enoughFuel S) m .empty := by
        rw [φ.walk, Nat.add_comm]
    _ = Registration.draftMessage T catalog strict m := ht

end Walk

/-- An embedded type is registered like the original. -/
theorem register (registry : Registry) (m : T.Message) :
    registry.register S (φ.message m) = registry.register T m := by
  simp only [Registry.register, Registry.registerExclusively, Registry.build, φ.messageName,
    φ.draftMessage]

theorem registerEnum (registry : Registry) (e : T.Enum) :
    registry.registerEnum S (φ.enum e) = registry.registerEnum T e := by
  simp only [Registry.registerEnum, Registration.draftEnum, φ.enumName, φ.ensureEnum]

end Embedding
end Schema
end MessageRegistry
