import MessageRegistry.Scalar

/-!
Semantic types: what a field holds in the eyes of an expression checker, and how they read. The
integer kinds of the wire format widen to two primitives, and both floating kinds to one.
-/
namespace MessageRegistry

inductive Primitive
  | bool
  | int64
  | uint64
  | double
  | string
  | bytes
  deriving DecidableEq, Repr

/-- Message types that have a semantic type of their own. -/
inductive SpecialType
  | any
  | timestamp
  | duration
  deriving DecidableEq, Repr

inductive SemanticType
  | dyn
  | null
  | primitive (kind : Primitive)
  /-- A primitive that may be absent. -/
  | wrapper (kind : Primitive)
  | special (kind : SpecialType)
  | list (element : SemanticType)
  | map (key value : SemanticType)
  | message (name : String)
  deriving DecidableEq, Repr

def ScalarKind.primitive : ScalarKind → Primitive
  | .bool => .bool
  | .int32 | .int64 | .sint32 | .sint64 | .sfixed32 | .sfixed64 => .int64
  | .uint32 | .uint64 | .fixed32 | .fixed64 => .uint64
  | .float | .double => .double
  | .string => .string
  | .bytes => .bytes

namespace SemanticType

/-- Whether a value of this type may be absent at evaluation time. -/
def isNullable : SemanticType → Bool
  | null | dyn | wrapper _ => true
  | _ => false

def messageName? : SemanticType → Option String
  | message name => some name
  | _ => none

def listElement? : SemanticType → Option SemanticType
  | list element => some element
  | _ => none

def mapEntry? : SemanticType → Option (SemanticType × SemanticType)
  | map key value => some (key, value)
  | _ => none

/-- Whether the message type `name` occurs in a type at some depth. -/
def Mentions (name : String) : SemanticType → Prop
  | message other => other = name
  | list element => element.Mentions name
  | map key value => key.Mentions name ∨ value.Mentions name
  | _ => False

end SemanticType

def Primitive.text : Primitive → String
  | bool => "bool"
  | int64 => "int"
  | uint64 => "uint"
  | double => "double"
  | string => "string"
  | bytes => "bytes"

def SpecialType.text : SpecialType → String
  | any => "any"
  | timestamp => "google.protobuf.Timestamp"
  | duration => "google.protobuf.Duration"

def SemanticType.text : SemanticType → String
  | dyn => "dyn"
  | null => "null_type"
  | primitive kind => kind.text
  | wrapper kind => "wrapper(" ++ kind.text ++ ")"
  | special kind => kind.text
  | list element => "list(" ++ element.text ++ ")"
  | map key value => "map(" ++ key.text ++ ", " ++ value.text ++ ")"
  | message name => name

end MessageRegistry
