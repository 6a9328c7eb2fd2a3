import MessageRegistry.Name
import MessageRegistry.SemanticType

/-!
The message types and the enum that every registry knows. A field typed by one of them is not
seen as a message: wrappers become nullable primitives, and the JSON types dynamic values.
-/
namespace MessageRegistry

inductive WellKnownMessage
  | any
  | value
  | listValue
  | struct
  | structFieldsEntry
  | timestamp
  | duration
  | boolValue
  | bytesValue
  | doubleValue
  | floatValue
  | int32Value
  | int64Value
  | stringValue
  | uint32Value
  | uint64Value
  deriving DecidableEq, Repr

namespace WellKnownMessage

def all : List WellKnownMessage :=
  [any, value, listValue, struct, structFieldsEntry, timestamp, duration, boolValue, bytesValue,
    doubleValue, floatValue, int32Value, int64Value, stringValue, uint32Value, uint64Value]

/-- The types a new registry describes, in this order. -/
def seeded : List WellKnownMessage :=
  [any, value, listValue, struct, timestamp, duration, boolValue, bytesValue, doubleValue,
    floatValue, int32Value, int64Value, stringValue, uint32Value, uint64Value]

def name : WellKnownMessage → String
  | any => "google.protobuf.Any"
  | value => "google.protobuf.Value"
  | listValue => "google.protobuf.ListValue"
  | struct => "google.protobuf.Struct"
  | structFieldsEntry => "google.protobuf.Struct.FieldsEntry"
  | timestamp => "google.protobuf.Timestamp"
  | duration => "google.protobuf.Duration"
  | boolValue => "google.protobuf.BoolValue"
  | bytesValue => "google.protobuf.BytesValue"
  | doubleValue => "google.protobuf.DoubleValue"
  | floatValue => "google.protobuf.FloatValue"
  | int32Value => "google.protobuf.Int32Value"
  | int64Value => "google.protobuf.Int64Value"
  | stringValue => "google.protobuf.StringValue"
  | uint32Value => "google.protobuf.UInt32Value"
  | uint64Value => "google.protobuf.UInt64Value"

def ofName? (typeName : String) : Option WellKnownMessage :=
  all.find? fun message => message.name = typeName

def wrappedKind? : WellKnownMessage → Option ScalarKind
  | boolValue => some .bool
  | bytesValue => some .bytes
  | doubleValue => some .double
  | floatValue => some .float
  | int32Value => some .int32
  | int64Value => some .int64
  | stringValue => some .string
  | uint32Value => some .uint32
  | uint64Value => some .uint64
  | _ => none

/-- What a field of this type holds, where that is not a message. -/
def semanticType? (message : WellKnownMessage) : Option SemanticType :=
  match message.wrappedKind? with
  | some kind => some (.wrapper kind.primitive)
  | none =>
    match message with
    | any => some (.special .any)
    | timestamp => some (.special .timestamp)
    | duration => some (.special .duration)
    | value => some .dyn
    | listValue => some (.list .dyn)
    | struct => some (.map (.primitive .string) .dyn)
    | _ => none

theorem mem_all (message : WellKnownMessage) : message ∈ all := by cases message <;> decide

theorem name_injective (a b : WellKnownMessage) (h : a.name = b.name) : a = b := by
  revert h; cases a <;> cases b <;> decide

end WellKnownMessage

namespace WellKnown

def package : String := "google.protobuf"

def nullValueName : String := "google.protobuf.NullValue"

def isInPackage (typeName : String) : Bool := Name.isDirectlyIn package typeName

/-- The primitive inside the wrapper message of that name. -/
def wrappedPrimitive? (typeName : String) : Option Primitive :=
  ((WellKnownMessage.ofName? typeName).bind (·.wrappedKind?)).map (·.primitive)

def isWrapper (typeName : String) : Bool := (wrappedPrimitive? typeName).isSome

/-- The semantic type of a field that refers to the message type of that name, if it is special. -/
def messageType? (typeName : String) : Option SemanticType :=
  if isInPackage typeName then (WellKnownMessage.ofName? typeName).bind (·.semanticType?) else none

def enumType? (typeName : String) : Option SemanticType :=
  if typeName = nullValueName then some .null else none

end WellKnown
end MessageRegistry
