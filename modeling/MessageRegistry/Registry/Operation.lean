import MessageRegistry.Name
import MessageRegistry.Registry.Register

/-!
Questions to a registry, the operations of a registry as data, runs of them, and the states that
runs reach. No question registers anything; a leading dot of a name is ignored.
-/
namespace MessageRegistry
namespace Registry

/-- The description of a message type. Only this question is counted. -/
def describe (registry : Registry) (name : String) :
    Outcome (Except Failure (Shared MessageInfo)) :=
  match registry.catalog.message? (Name.normalize name) with
  | some info => ⟨.ok info, [], registry.countHit⟩
  | none => ⟨.error (.notFound (Name.normalize name)), [], registry.countMiss⟩

def describeEnum (registry : Registry) (name : String) : Except Failure (Shared EnumInfo) :=
  match registry.catalog.enum? (Name.normalize name) with
  | some info => .ok info
  | none => .error (.notFound (Name.normalize name))

def describeEnumValue (registry : Registry) (name : String) : Except Failure EnumValueInfo :=
  match registry.catalog.enumValue? (Name.normalize name) with
  | some info => .ok info
  | none => .error (.notFound (Name.normalize name))

def contains (registry : Registry) (name : String) : Bool :=
  registry.catalog.messages.contains (Name.normalize name)

def size (registry : Registry) : Nat := registry.catalog.messages.size

def isEmpty (registry : Registry) : Bool := registry.catalog.messages.entries.isEmpty

def typeNames (registry : Registry) : List String := Name.sort registry.catalog.messages.keys

end Registry

inductive Operation (S : Schema)
  | register (m : S.Message)
  /-- Registers the type of a value of type `m`. -/
  | registerTypeOf (m : S.Message)
  | registerEnum (e : S.Enum)
  | describe (name : String)
  | describeEnum (name : String)
  | describeEnumValue (name : String)
  | contains (name : String)
  | size
  | isEmpty
  | typeNames
  | config
  deriving DecidableEq, Repr

inductive Answer
  | message (info : Shared MessageInfo)
  | enum (info : Shared EnumInfo)
  | enumValue (info : EnumValueInfo)
  | truth (value : Bool)
  | count (value : Nat)
  | names (value : List String)
  | config (value : Config)
  | failure (reason : Failure)
  deriving DecidableEq, Repr

def Answer.ofExcept {α : Type} (ok : α → Answer) : Except Failure α → Answer
  | .ok value => ok value
  | .error reason => .failure reason

namespace Registry
variable {S : Schema}

def perform (registry : Registry) : Operation S → Outcome Answer
  | .register m => (registry.register S m).map (.ofExcept .message)
  | .registerTypeOf m => (registry.registerTypeOf S m).map (.ofExcept .message)
  | .registerEnum e => (registry.registerEnum S e).map (.ofExcept .enum)
  | .describe name => (registry.describe name).map (.ofExcept .message)
  | .describeEnum name => ⟨.ofExcept .enum (registry.describeEnum name), [], registry⟩
  | .describeEnumValue name =>
    ⟨.ofExcept .enumValue (registry.describeEnumValue name), [], registry⟩
  | .contains name => ⟨.truth (registry.contains name), [], registry⟩
  | .size => ⟨.count registry.size, [], registry⟩
  | .isEmpty => ⟨.truth registry.isEmpty, [], registry⟩
  | .typeNames => ⟨.names registry.typeNames, [], registry⟩
  | .config => ⟨.config registry.config, [], registry⟩

/-- Performs operations one after the other and gives the outcome of each. -/
def run (registry : Registry) : List (Operation S) → List (Outcome Answer)
  | [] => []
  | operation :: operations =>
    let outcome := registry.perform operation
    outcome :: outcome.registry.run operations

def after (registry : Registry) (operations : List (Operation S)) : Registry :=
  operations.foldl (fun registry operation => (registry.perform operation).registry) registry

/-- The registries that operations over a schema lead to. -/
inductive Reachable (S : Schema) : Registry → Prop
  | create (id : Nat) (config : Config) : Reachable S (create id config).registry
  | perform {registry : Registry} (operation : Operation S) :
      Reachable S registry → Reachable S (registry.perform operation).registry

end Registry

end MessageRegistry
