/-!
Why a registration is refused, and why a request fails. A fault met in the type of a field is
wrapped in a link that names the field, so a fault is a path to its cause.
-/
namespace MessageRegistry

inductive Fault
  | emptyTypeName
  | invalidFieldName (typeName field : String)
  /-- Two fields share a name, or the name they are exported under. -/
  | duplicateFieldName (typeName field : String)
  | duplicateFieldNumber (typeName : String) (number : UInt32)
  | malformedMapEntry (typeName : String)
  | unsupportedMapKey (typeName field : String)
  | invalidEnum (enumName : String)
  | inField (typeName field : String) (source : Fault)
  deriving DecidableEq, Repr

namespace Fault

/-- The fault one link further in. -/
def source? : Fault → Option Fault
  | inField _ _ source => some source
  | _ => none

/-- The fault behind all links. -/
def rootCause : Fault → Fault
  | inField _ _ source => source.rootCause
  | fault => fault

/-- The fault and its sources, outermost first. -/
def chain : Fault → List Fault
  | inField typeName field source => inField typeName field source :: source.chain
  | fault => [fault]

def message : Fault → String
  | emptyTypeName => "message descriptor has an empty type name"
  | invalidFieldName typeName field => "invalid field name '" ++ field ++ "' in " ++ typeName
  | duplicateFieldName typeName field => "duplicate field name '" ++ field ++ "' in " ++ typeName
  | duplicateFieldNumber typeName number =>
    "duplicate field number " ++ toString number.toNat ++ " in " ++ typeName
  | malformedMapEntry typeName => "malformed map entry " ++ typeName
  | unsupportedMapKey typeName field =>
    "unsupported map key type for " ++ typeName ++ "." ++ field
  | invalidEnum enumName => "invalid enum descriptor '" ++ enumName ++ "'"
  | inField typeName field source => typeName ++ "." ++ field ++ ": " ++ source.message

end Fault

inductive Failure
  | notFound (name : String)
  | rejected (fault : Fault)
  deriving DecidableEq, Repr

namespace Failure

def isNotFound : Failure → Bool
  | notFound _ => true
  | rejected _ => false

def source? : Failure → Option Fault
  | notFound _ => none
  | rejected fault => some fault

def rootCause? : Failure → Option Fault
  | notFound _ => none
  | rejected fault => some fault.rootCause

/-- The faults behind a failure, outermost first. -/
def sources : Failure → List Fault
  | notFound _ => []
  | rejected fault => fault.chain

def message : Failure → String
  | notFound name => "Type not found: " ++ name
  | rejected fault => "Registration failed: " ++ fault.message

end Failure
end MessageRegistry
