import MessageRegistry.Fault
import MessageRegistry.Name
import MessageRegistry.Schema.Basic
import MessageRegistry.Table

/-!
What the registry tells about the types that it describes: of a field its element, its labels and
its semantic type, of a message type its fields in the order of declaration, found by name, by
number and by position, and of an enum its values, each under its short name inside the enum's full
name. Fields that share a key are refused.
-/
namespace MessageRegistry

/-- What one value of a field refers to; for a map, what a value under a key does. -/
inductive Element
  | scalar (kind : ScalarKind)
  | message (typeName : String)
  | enum (typeName : String)
  deriving DecidableEq, Repr

inductive ElementKind
  | scalar (kind : ScalarKind)
  | message
  | enum
  deriving DecidableEq, Repr

namespace Element

def kind : Element → ElementKind
  | scalar kind => .scalar kind
  | message _ => .message
  | enum _ => .enum

def typeName? : Element → Option String
  | scalar _ => none
  | message typeName | enum typeName => some typeName

/-- Enums are integers to the checker, and so is an integer of any width. -/
def type : Element → SemanticType
  | scalar kind => .primitive kind.primitive
  | message typeName => (WellKnown.messageType? typeName).getD (.message typeName)
  | enum typeName => (WellKnown.enumType? typeName).getD (.primitive .int64)

theorem eq_of_kind_of_typeName? {a b : Element} (hkind : a.kind = b.kind)
    (hname : a.typeName? = b.typeName?) : a = b := by
  cases a <;> cases b <;> simp_all [kind, typeName?]

end Element

structure FieldInfo where
  /-- The name as declared. -/
  name : String
  exportedName : String
  getterName : String
  /-- The position in the order of declaration. -/
  index : Nat
  number : UInt32
  oneof : Option String
  elementKind : ElementKind
  /-- The message or enum type of an element. -/
  typeName? : Option String
  isMap : Bool
  isRepeated : Bool
  type : SemanticType
  deriving DecidableEq, Repr

namespace FieldInfo

def isOneof (field : FieldInfo) : Bool := field.oneof.isSome

def isMessage (field : FieldInfo) : Bool := field.elementKind == .message

def isEnum (field : FieldInfo) : Bool := field.elementKind == .enum

/-- Whether the field's element is one of the wrapper messages. -/
def isWrapper (field : FieldInfo) : Bool :=
  field.isMessage && field.typeName?.any WellKnown.isWrapper

/-- The stored kind and type name are those of the element. -/
structure HasElement (field : FieldInfo) (element : Element) : Prop where
  kind : field.elementKind = element.kind
  typeName? : field.typeName? = element.typeName?

theorem HasElement.unique {field : FieldInfo} {a b : Element} (ha : field.HasElement a)
    (hb : field.HasElement b) : a = b :=
  Element.eq_of_kind_of_typeName? (ha.kind.symm.trans hb.kind)
    (ha.typeName?.symm.trans hb.typeName?)

theorem HasElement.hasElement_iff {field : FieldInfo} {a b : Element} (h : field.HasElement a) :
    field.HasElement b ↔ a = b :=
  ⟨h.unique, fun hab => hab ▸ h⟩

theorem hasElement_message_iff {field : FieldInfo} {typeName : String} :
    field.HasElement (.message typeName) ↔
      field.isMessage = true ∧ field.typeName? = some typeName := by
  rw [isMessage, beq_iff_eq]
  exact ⟨fun h => ⟨h.kind, h.typeName?⟩, fun h => ⟨h.1, h.2⟩⟩

end FieldInfo

/-- The position of the field under each key. -/
structure FieldIndex where
  byName : Table String Nat
  byExportedName : Table String Nat
  byNumber : Table UInt32 Nat
  deriving DecidableEq, Repr

namespace FieldIndex

def empty : FieldIndex := ⟨.empty, .empty, .empty⟩

/-- Enters a field of the message type `owner` at a position. -/
def add? (owner : String) (index : FieldIndex) (position : Nat) (field : FieldInfo) :
    Except Fault FieldIndex :=
  if index.byName.contains field.name then
    .error (.duplicateFieldName owner field.name)
  else if index.byExportedName.contains field.exportedName then
    .error (.duplicateFieldName owner field.exportedName)
  else if index.byNumber.contains field.number then
    .error (.duplicateFieldNumber owner field.number)
  else
    .ok
      { byName := index.byName.insert field.name position
        byExportedName := index.byExportedName.insert field.exportedName position
        byNumber := index.byNumber.insert field.number position }

/-- Enters fields one after the other, the first at `position`. -/
def addAll? (owner : String) : FieldIndex → Nat → List FieldInfo → Except Fault FieldIndex
  | index, _, [] => .ok index
  | index, position, field :: fields =>
    match index.add? owner position field with
    | .error fault => .error fault
    | .ok index => addAll? owner index (position + 1) fields

end FieldIndex

structure MessageInfo where
  name : String
  fields : List FieldInfo
  index : FieldIndex
  deriving DecidableEq, Repr

namespace MessageInfo

def ofFields? (name : String) (fields : List FieldInfo) : Except Fault MessageInfo :=
  match FieldIndex.empty.addAll? name 0 fields with
  | .error fault => .error fault
  | .ok index => .ok ⟨name, fields, index⟩

def fieldCount (message : MessageInfo) : Nat := message.fields.length

def fieldAt? (message : MessageInfo) (position : Nat) : Option FieldInfo :=
  message.fields[position]?

/-- Declared names go before exported ones. -/
def fieldNamed? (message : MessageInfo) (name : String) : Option FieldInfo :=
  ((message.index.byName.get? name).or (message.index.byExportedName.get? name)).bind
    message.fieldAt?

def fieldNumbered? (message : MessageInfo) (number : UInt32) : Option FieldInfo :=
  (message.index.byNumber.get? number).bind message.fieldAt?

def hasField (message : MessageInfo) (name : String) : Bool := (message.fieldNamed? name).isSome

end MessageInfo

structure EnumValueInfo where
  name : String
  enumName : String
  number : Int32
  deriving DecidableEq, Repr

def EnumValueDecl.describe (enumName : String) (value : EnumValueDecl) : EnumValueInfo :=
  ⟨Name.qualify enumName value.name, enumName, value.number⟩

structure EnumInfo where
  name : String
  values : List EnumValueInfo
  deriving DecidableEq, Repr

namespace EnumInfo

/-- The first value whose full name ends in that short name. -/
def valueNamed? (enum : EnumInfo) (short : String) : Option EnumValueInfo :=
  enum.values.find? fun value => Name.lastComponent value.name = short

def valueNumbered? (enum : EnumInfo) (number : Int32) : Option EnumValueInfo :=
  enum.values.find? fun value => value.number = number

end EnumInfo

namespace EnumDecl

/-- The description of an enum, whether or not it may be published. -/
def describe (decl : EnumDecl) : EnumInfo :=
  let name := Name.normalize decl.name
  ⟨name, decl.values.map (·.describe name)⟩

def hasProperValues (strict : Bool) (decl : EnumDecl) : Bool :=
  (!strict || decl.values.all fun value => Name.isIdentifier value.name) &&
    decide (decl.values.map (·.name)).Nodup

def describe? (strict : Bool) (decl : EnumDecl) : Except Fault EnumInfo :=
  if Name.normalize decl.name ≠ "" ∧ decl.hasProperValues strict then
    .ok decl.describe
  else
    .error (.invalidEnum (Name.normalize decl.name))

end EnumDecl

end MessageRegistry
