import MessageRegistry.Fault

/-!
What a registry reports of its work, one line of text for each event.
-/
namespace MessageRegistry

inductive Level
  | trace
  | debug
  | warn
  | error
  deriving DecidableEq, Repr

def Level.text : Level → String
  | trace => "TRACE"
  | debug => "DEBUG"
  | warn => "WARN"
  | error => "ERROR"

inductive Event
  /-- A message type that is still being described was met again. -/
  | inProgress (typeName : String)
  | publishedType (typeName : String)
  | publishedEnum (enumName : String)
  | rejectedType (typeName : String) (fault : Fault)
  | rejectedEnum (enumName : String) (fault : Fault)
  /-- A well-known type could not be described in a new registry. -/
  | seedFailed (typeName : String) (failure : Failure)
  deriving DecidableEq, Repr

namespace Event

def level : Event → Level
  | inProgress _ => .trace
  | publishedType _ | publishedEnum _ => .debug
  | rejectedType _ _ | rejectedEnum _ _ => .warn
  | seedFailed _ _ => .error

def message : Event → String
  | inProgress name => "[DescriptionBuilder] " ++ name ++ " in progress, referencing by name"
  | publishedType name => "[TypeRegistry::publish] type " ++ name
  | publishedEnum name => "[TypeRegistry::publish] enum " ++ name
  | rejectedType name fault =>
    "[TypeRegistry::register] " ++ name ++ " rejected: " ++ fault.message
  | rejectedEnum name fault =>
    "[TypeRegistry::register_enum] " ++ name ++ " rejected: " ++ fault.message
  | seedFailed name failure => "[TypeRegistry::seed] " ++ name ++ ": " ++ failure.message

def text (event : Event) : String := event.level.text ++ " " ++ event.message

end Event
end MessageRegistry
