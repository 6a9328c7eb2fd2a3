import MessageRegistry.Text.Quoted
import MessageRegistry.WellKnown

/-!
Declared message and enum types. A schema is a finite table of declarations whose fields refer to
types of the table, or to well-known ones, by position: every reference has a target, and types
may refer to each other and to themselves.

The well-known types are declared here too, and with them every reference of a schema has a
declaration.
-/
namespace MessageRegistry

/-- What a field refers to, for message references `M` and enum references `E`. -/
inductive FieldType (M E : Type)
  | scalar (kind : ScalarKind)
  | message (target : M)
  | enum (target : E)
  deriving DecidableEq, Repr

inductive Label
  | optional
  | required
  | repeated
  deriving DecidableEq, Repr

structure FieldDecl (M E : Type) where
  name : String
  number : UInt32
  type : FieldType M E
  label : Label
  /-- The group of fields of which at most one is set. -/
  oneof : Option String
  deriving DecidableEq, Repr

namespace FieldDecl
variable {M E : Type}

/-- An optional field outside every group. -/
def ofType (name : String) (number : UInt32) (type : FieldType M E) : FieldDecl M E :=
  ⟨name, number, type, .optional, none⟩

def scalar (name : String) (number : UInt32) (kind : ScalarKind) : FieldDecl M E :=
  ofType name number (.scalar kind)

def message (name : String) (number : UInt32) (target : M) : FieldDecl M E :=
  ofType name number (.message target)

def enum (name : String) (number : UInt32) (target : E) : FieldDecl M E :=
  ofType name number (.enum target)

def repeated (field : FieldDecl M E) : FieldDecl M E := { field with label := .repeated }

def required (field : FieldDecl M E) : FieldDecl M E := { field with label := .required }

def inOneof (field : FieldDecl M E) (group : String) : FieldDecl M E :=
  { field with oneof := some group }

/-- A map is declared as a repeated field of entries. -/
def map (name : String) (number : UInt32) (entry : M) : FieldDecl M E :=
  (message name number entry).repeated

def isRepeated (field : FieldDecl M E) : Bool := field.label == .repeated

end FieldDecl

structure MessageDecl (M E : Type) where
  name : String
  fields : List (FieldDecl M E)
  /-- Whether the type is the pair of a key and a value behind a map field. -/
  isMapEntry : Bool
  deriving DecidableEq, Repr

/-- The first field declared under that name. -/
def MessageDecl.field? {M E : Type} (message : MessageDecl M E) (name : String) :
    Option (FieldDecl M E) :=
  message.fields.find? fun field => field.name = name

structure EnumValueDecl where
  name : String
  number : Int32
  deriving DecidableEq, Repr

structure EnumDecl where
  name : String
  values : List EnumValueDecl
  deriving DecidableEq, Repr

inductive MessageRef (messageCount : Nat)
  | wellKnown (message : WellKnownMessage)
  | declared (index : Fin messageCount)
  deriving DecidableEq, Repr

inductive EnumRef (enumCount : Nat)
  | nullValue
  | declared (index : Fin enumCount)
  deriving DecidableEq, Repr

structure Schema where
  messageCount : Nat
  enumCount : Nat
  messages : Vector (MessageDecl (MessageRef messageCount) (EnumRef enumCount)) messageCount
  enums : Vector EnumDecl enumCount

namespace Schema

abbrev Message (S : Schema) := MessageRef S.messageCount

abbrev Enum (S : Schema) := EnumRef S.enumCount

abbrev FieldType (S : Schema) := MessageRegistry.FieldType S.Message S.Enum

abbrev Field (S : Schema) := FieldDecl S.Message S.Enum

/-- The schema that declares nothing; its only types are the well-known ones. -/
def empty : Schema := ⟨0, 0, #v[], #v[]⟩

/-- All message types that can be referred to. -/
def allMessages (S : Schema) : List S.Message :=
  WellKnownMessage.all.map .wellKnown ++ (List.finRange S.messageCount).map .declared

def allEnums (S : Schema) : List S.Enum :=
  .nullValue :: (List.finRange S.enumCount).map .declared

theorem mem_allMessages (S : Schema) (m : S.Message) : m ∈ S.allMessages := by
  cases m with
  | wellKnown message => simp [allMessages, WellKnownMessage.mem_all]
  | declared index => simp [allMessages]

theorem mem_allEnums (S : Schema) (e : S.Enum) : e ∈ S.allEnums := by
  cases e <;> simp [allEnums]

end Schema

/-- The wrapper message of that name around a scalar. -/
def MessageDecl.wrapper {M E : Type} (name : String) (kind : ScalarKind) : MessageDecl M E :=
  ⟨name, [.scalar "value" 1 kind], false⟩

/-- An instant or a span, in seconds and billionths. -/
def MessageDecl.seconds {M E : Type} (name : String) : MessageDecl M E :=
  ⟨name, [.scalar "seconds" 1 .int64, .scalar "nanos" 2 .int32], false⟩

namespace WellKnownMessage
variable {messageCount enumCount : Nat}

def decl (message : WellKnownMessage) :
    MessageDecl (MessageRef messageCount) (EnumRef enumCount) :=
  match message with
  | any => ⟨any.name, [.scalar "type_url" 1 .string, .scalar "value" 2 .bytes], false⟩
  | value =>
    ⟨value.name,
      [FieldDecl.inOneof (.enum "null_value" 1 .nullValue) "kind",
        FieldDecl.inOneof (.scalar "number_value" 2 .double) "kind",
        FieldDecl.inOneof (.scalar "string_value" 3 .string) "kind",
        FieldDecl.inOneof (.scalar "bool_value" 4 .bool) "kind",
        FieldDecl.inOneof (.message "struct_value" 5 (.wellKnown struct)) "kind",
        FieldDecl.inOneof (.message "list_value" 6 (.wellKnown listValue)) "kind"],
      false⟩
  | listValue =>
    ⟨listValue.name, [FieldDecl.repeated (.message "values" 1 (.wellKnown value))], false⟩
  | struct => ⟨struct.name, [.map "fields" 1 (.wellKnown structFieldsEntry)], false⟩
  | structFieldsEntry =>
    ⟨structFieldsEntry.name,
      [.scalar "key" 1 .string, .message "value" 2 (.wellKnown value)], true⟩
  | timestamp => .seconds timestamp.name
  | duration => .seconds duration.name
  | boolValue => .wrapper boolValue.name .bool
  | bytesValue => .wrapper bytesValue.name .bytes
  | doubleValue => .wrapper doubleValue.name .double
  | floatValue => .wrapper floatValue.name .float
  | int32Value => .wrapper int32Value.name .int32
  | int64Value => .wrapper int64Value.name .int64
  | stringValue => .wrapper stringValue.name .string
  | uint32Value => .wrapper uint32Value.name .uint32
  | uint64Value => .wrapper uint64Value.name .uint64

theorem name_decl (message : WellKnownMessage) :
    (message.decl : MessageDecl (MessageRef messageCount) (EnumRef enumCount)).name =
      message.name := by
  cases message <;> rfl

end WellKnownMessage

/-- The enum with the single value of the JSON null. -/
def EnumDecl.nullValue : EnumDecl := ⟨WellKnown.nullValueName, [⟨"NULL_VALUE", 0⟩]⟩

namespace Schema

def message (S : Schema) : S.Message → MessageDecl S.Message S.Enum
  | .wellKnown message => message.decl
  | .declared index => S.messages[index]

def enum (S : Schema) : S.Enum → EnumDecl
  | .nullValue => .nullValue
  | .declared index => S.enums[index]

/-- The name under which a message type is known. -/
def messageName (S : Schema) (m : S.Message) : String := Name.normalize (S.message m).name

def enumName (S : Schema) (e : S.Enum) : String := Name.normalize (S.enum e).name

/-- The full name that a field's type refers to, as it is declared. -/
def typeName? (S : Schema) : S.FieldType → Option String
  | .scalar _ => none
  | .message target => some (S.message target).name
  | .enum target => some (S.enum target).name

def typeText (S : Schema) : S.FieldType → String
  | .scalar kind => "Scalar(" ++ kind.name ++ ")"
  | .message target => "Message(" ++ Text.quote (S.message target).name ++ ")"
  | .enum target => "Enum(" ++ Text.quote (S.enum target).name ++ ")"

end Schema
end MessageRegistry
