import MessageRegistry.Registration
import MessageRegistry.Registry.Basic

/-!
Registration. A type that is known is answered as it is; otherwise it is drafted together with
all it refers to, and the draft is published as a whole or, on a fault, dropped as a whole. A new
registry registers the well-known types.
-/
namespace MessageRegistry

class HasMessageType (S : Schema) (α : Type) where
  messageType : α → S.Message

/-- A reference stands for a value of its type. -/
instance (S : Schema) : HasMessageType S S.Message := ⟨id⟩

namespace Registry
variable (S : Schema)

def publish (registry : Registry) (draft : Draft) : Registry :=
  { registry with
    catalog := registry.catalog.publish registry.id draft.messages.values draft.enums.values }

/-- Drafts and publishes a message type that is not known. A walk does not run out of fuel, and
what it drafts includes the type itself, so that `notFound` is no answer in fact. -/
def build (registry : Registry) (m : S.Message) : Outcome (Except Failure (Shared MessageInfo)) :=
  let name := S.messageName m
  match Registration.draftMessage S registry.catalog registry.config.strictNames m with
  | .error .exhausted => ⟨.error (.notFound name), [], registry⟩
  | .error (.rejected fault trail) =>
    ⟨.error (.rejected fault), Visit.reports trail ++ [.rejectedType name fault], registry⟩
  | .ok draft =>
    let published := registry.publish draft
    ⟨match published.catalog.message? name with
      | some info => .ok info
      | none => .error (.notFound name),
      Visit.reports draft.trail ++ draft.publications,
      { published with stats := published.stats.countRegistrations draft.messages.size }⟩

/-- What a registration does while it keeps all others out: it looks once more whether the type
has become known, and builds it if not. -/
def registerExclusively (registry : Registry) (m : S.Message) :
    Outcome (Except Failure (Shared MessageInfo)) :=
  match registry.catalog.message? (S.messageName m) with
  | some info => ⟨.ok info, [], registry.countHit⟩
  | none => registry.build S m

def register (registry : Registry) (m : S.Message) :
    Outcome (Except Failure (Shared MessageInfo)) :=
  if S.messageName m = "" then ⟨.error (.rejected .emptyTypeName), [], registry⟩
  else
    match registry.catalog.message? (S.messageName m) with
    | some info => ⟨.ok info, [], registry.countHit⟩
    | none => registry.registerExclusively S m

def registerTypeOf {α : Type} [HasMessageType S α] (registry : Registry) (value : α) :
    Outcome (Except Failure (Shared MessageInfo)) :=
  registry.register S (HasMessageType.messageType value)

/-- Registers an enum and its values. This counts neither as a hit nor as a registration. -/
def registerEnum (registry : Registry) (e : S.Enum) :
    Outcome (Except Failure (Shared EnumInfo)) :=
  let name := S.enumName e
  match registry.catalog.enum? name with
  | some info => ⟨.ok info, [], registry⟩
  | none =>
    match Registration.draftEnum S registry.catalog registry.config.strictNames e with
    | .error .exhausted => ⟨.error (.notFound name), [], registry⟩
    | .error (.rejected fault trail) =>
      ⟨.error (.rejected fault), Visit.reports trail ++ [.rejectedEnum name fault], registry⟩
    | .ok draft =>
      let published := registry.publish draft
      ⟨match published.catalog.enum? name with
        | some info => .ok info
        | none => .error (.notFound name),
        Visit.reports draft.trail ++ draft.publications,
        published⟩

def seedReports {α : Type} (name : String) : Except Failure α → List Event
  | .ok _ => []
  | .error failure => [.seedFailed name failure]

def seedEnum (registry : Registry) : Outcome Unit :=
  (registry.registerEnum .empty .nullValue).andThen fun answer registry =>
    ⟨(), seedReports WellKnown.nullValueName answer, registry⟩

def seedMessage (registry : Registry) (message : WellKnownMessage) : Outcome Unit :=
  (registry.register .empty (.wellKnown message)).andThen fun answer registry =>
    ⟨(), seedReports message.name answer, registry⟩

def seedMessages (registry : Registry) : List WellKnownMessage → Outcome Unit
  | [] => ⟨(), [], registry⟩
  | message :: messages =>
    (registry.seedMessage message).andThen fun _ registry => registry.seedMessages messages

def create (id : Nat) (config : Config) : Outcome Unit :=
  (bare id config).seedEnum.andThen fun _ registry => registry.seedMessages WellKnownMessage.seeded

end Registry
end MessageRegistry
