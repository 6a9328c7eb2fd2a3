import MessageRegistry.Fault
import MessageRegistry.Info
import MessageRegistry.Name
import MessageRegistry.Schema.Basic

/-!
What a declared field means: a single element, a list of elements, or a map whose entries are
declared as a message of their own. Only the field and the entry are looked at, never the types
that they refer to.
-/
namespace MessageRegistry

inductive Form (M E : Type)
  | single (element : FieldType M E)
  | list (element : FieldType M E)
  | map (key : ScalarKind) (value : FieldType M E)
  deriving DecidableEq, Repr

namespace Form
variable {M E : Type}

def element : Form M E → FieldType M E
  | single element | list element | map _ element => element

def isMap : Form M E → Bool
  | map _ _ => true
  | _ => false

def isRepeated : Form M E → Bool
  | list _ => true
  | _ => false

/-- The semantic type, given that of the element. -/
def type (elementType : SemanticType) : Form M E → SemanticType
  | single _ => elementType
  | list _ => .list elementType
  | map key _ => .map (.primitive key.primitive) elementType

end Form

namespace FieldDecl
variable {M E : Type}

def plainForm (field : FieldDecl M E) : Form M E :=
  if field.isRepeated then .list field.type else .single field.type

/-- A map field of the message type `owner`, typed by `entry`. The entry has a field named key and
after it one named value, neither repeated, and the key is a scalar that may serve as one. -/
def mapForm? (owner : String) (field : FieldDecl M E) (entry : MessageDecl M E) :
    Except Fault (Form M E) :=
  match entry.fields with
  | [key, value] =>
    if key.name = "key" ∧ value.name = "value" ∧ !key.isRepeated ∧ !value.isRepeated then
      match key.type with
      | .scalar kind =>
        if kind.isMapKey then .ok (.map kind value.type)
        else .error (.unsupportedMapKey owner field.name)
      | _ => .error (.unsupportedMapKey owner field.name)
    else .error (.malformedMapEntry (Name.normalize entry.name))
  | _ => .error (.malformedMapEntry (Name.normalize entry.name))

end FieldDecl

namespace Schema

/-- Reads a field of the message type `owner`. Where names are strict, it has to be an identifier;
a field typed by a map entry has to be repeated. -/
def form? (S : Schema) (strict : Bool) (owner : String) (field : S.Field) :
    Except Fault (Form S.Message S.Enum) :=
  if strict && !Name.isIdentifier field.name then .error (.invalidFieldName owner field.name)
  else
    match field.type with
    | .message target =>
      if (S.message target).isMapEntry then
        if field.isRepeated then field.mapForm? owner (S.message target)
        else .error (.malformedMapEntry (S.messageName target))
      else .ok field.plainForm
    | _ => .ok field.plainForm

def elementOf (S : Schema) : S.FieldType → Element
  | .scalar kind => .scalar kind
  | .message target => .message (S.messageName target)
  | .enum target => .enum (S.enumName target)

def describeField (S : Schema) (position : Nat) (field : S.Field)
    (form : Form S.Message S.Enum) : FieldInfo :=
  let exportedName := Name.exported field.name
  let element := S.elementOf form.element
  { name := field.name
    exportedName
    getterName := Name.getter exportedName
    index := position
    number := field.number
    oneof := field.oneof
    elementKind := element.kind
    typeName? := element.typeName?
    isMap := form.isMap
    isRepeated := form.isRepeated
    type := form.type element.type }

theorem hasElement_describeField_iff {S : Schema} {position : Nat} {field : S.Field}
    {form : Form S.Message S.Enum} {element : Element} :
    (S.describeField position field form).HasElement element ↔
      S.elementOf form.element = element := by
  have h : (S.describeField position field form).HasElement (S.elementOf form.element) := ⟨rfl, rfl⟩
  exact h.hasElement_iff

end Schema
end MessageRegistry
