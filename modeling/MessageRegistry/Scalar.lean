/-!
Scalar kinds of the wire format.
-/
namespace MessageRegistry

inductive ScalarKind
  | double
  | float
  | int64
  | uint64
  | int32
  | fixed64
  | fixed32
  | bool
  | string
  | bytes
  | uint32
  | sfixed32
  | sfixed64
  | sint32
  | sint64
  deriving DecidableEq, Repr

namespace ScalarKind

def all : List ScalarKind :=
  [double, float, int64, uint64, int32, fixed64, fixed32, bool, string, bytes, uint32, sfixed32,
    sfixed64, sint32, sint64]

/-- The word that declares a field of this kind. -/
def keyword : ScalarKind → String
  | double => "double"
  | float => "float"
  | int64 => "int64"
  | uint64 => "uint64"
  | int32 => "int32"
  | fixed64 => "fixed64"
  | fixed32 => "fixed32"
  | bool => "bool"
  | string => "string"
  | bytes => "bytes"
  | uint32 => "uint32"
  | sfixed32 => "sfixed32"
  | sfixed64 => "sfixed64"
  | sint32 => "sint32"
  | sint64 => "sint64"

def name : ScalarKind → String
  | double => "Double"
  | float => "Float"
  | int64 => "Int64"
  | uint64 => "Uint64"
  | int32 => "Int32"
  | fixed64 => "Fixed64"
  | fixed32 => "Fixed32"
  | bool => "Bool"
  | string => "String"
  | bytes => "Bytes"
  | uint32 => "Uint32"
  | sfixed32 => "Sfixed32"
  | sfixed64 => "Sfixed64"
  | sint32 => "Sint32"
  | sint64 => "Sint64"

/-- Keys of a map are integers, booleans or strings. -/
def isMapKey : ScalarKind → Bool
  | double | float | bytes => false
  | _ => true

theorem mem_all (kind : ScalarKind) : kind ∈ all := by cases kind <;> decide

end ScalarKind
end MessageRegistry
