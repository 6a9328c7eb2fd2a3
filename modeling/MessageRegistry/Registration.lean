import MessageRegistry.Catalog
import MessageRegistry.Event
import MessageRegistry.Resolution

/-!
One registration. Descriptions are collected in a draft and published together, or not at all. A
draft also knows which message types it is in the middle of, and keeps a trail of entering, leaving
and meeting them.

A walk describes a message type and every type it refers to, depth first and in the order of
declaration. A type that is published, drafted or in progress is not entered again, so a walk over
a cyclic schema ends.
-/
namespace MessageRegistry

/-- What happens to a message type during a registration. -/
inductive Visit
  | enter (typeName : String)
  | leave (typeName : String)
  /-- The type was met while it was still being described. -/
  | revisit (typeName : String)
  deriving DecidableEq, Repr

structure Draft where
  /-- The types being described, the innermost first. -/
  inProgress : List String
  messages : Table String MessageInfo
  enums : Table String EnumInfo
  /-- The visits, the latest first. -/
  trail : List Visit
  deriving DecidableEq, Repr

namespace Draft

def empty : Draft := ⟨[], .empty, .empty, []⟩

def enter (draft : Draft) (typeName : String) : Draft :=
  { draft with inProgress := typeName :: draft.inProgress, trail := .enter typeName :: draft.trail }

def leave (draft : Draft) (typeName : String) : Draft :=
  { draft with inProgress := draft.inProgress.tail, trail := .leave typeName :: draft.trail }

def revisit (draft : Draft) (typeName : String) : Draft :=
  { draft with trail := .revisit typeName :: draft.trail }

def stageMessage (draft : Draft) (info : MessageInfo) : Draft :=
  { draft with messages := draft.messages.insert info.name info }

def stageEnum (draft : Draft) (info : EnumInfo) : Draft :=
  { draft with enums := draft.enums.insert info.name info }

def publications (draft : Draft) : List Event :=
  draft.messages.values.map (fun info => .publishedType info.name) ++
    draft.enums.values.map (fun info => .publishedEnum info.name)

end Draft

/-- What a trail reports: the types met while in progress, in the order of time. -/
def Visit.reports (trail : List Visit) : List Event :=
  trail.reverse.filterMap fun
    | .revisit typeName => some (.inProgress typeName)
    | _ => none

/-- A trail reports nothing else. -/
theorem Visit.exists_reports_eq (trail : List Visit) :
    ∃ met : List String, reports trail = met.map .inProgress := by
  refine ⟨trail.reverse.filterMap fun | .revisit typeName => some typeName | _ => none, ?_⟩
  rw [reports, List.map_filterMap]
  congr 1
  funext visit
  cases visit <;> rfl

/-- The types in progress after a trail, the innermost first. -/
def Visit.stack : List Visit → List String
  | [] => []
  | .enter typeName :: trail => typeName :: stack trail
  | .leave _ :: trail => (stack trail).tail
  | .revisit _ :: trail => stack trail

/-- Why a walk stops before its end: a fault, together with the trail up to it, or lack of fuel. -/
inductive Halt
  | rejected (fault : Fault) (trail : List Visit)
  | exhausted
  deriving DecidableEq, Repr

def Halt.inField (typeName field : String) : Halt → Halt
  | rejected fault trail => rejected (.inField typeName field fault) trail
  | exhausted => exhausted

namespace Registration
variable (S : Schema) (catalog : Catalog) (strict : Bool)

def ensureEnum (e : S.Enum) (draft : Draft) : Except Halt Draft :=
  let name := S.enumName e
  if catalog.enums.contains name || draft.enums.contains name then .ok draft
  else
    match (S.enum e).describe? strict with
    | .error fault => .error (.rejected fault draft.trail)
    | .ok info => .ok (draft.stageEnum info)

variable (ensureMessage : S.Message → Draft → Except Halt Draft)

def ensureElement : S.FieldType → Draft → Except Halt Draft
  | .scalar _, draft => .ok draft
  | .message target, draft => ensureMessage target draft
  | .enum target, draft => ensureEnum S catalog strict target draft

def walkField (owner : String) (position : Nat) (field : S.Field) (draft : Draft) :
    Except Halt (FieldInfo × Draft) :=
  match S.form? strict owner field with
  | .error fault => .error (.rejected fault draft.trail)
  | .ok form =>
    match ensureElement S catalog strict ensureMessage form.element draft with
    | .error halt => .error (halt.inField owner field.name)
    | .ok draft => .ok (S.describeField position field form, draft)

def walkFields (owner : String) : Nat → List S.Field → Draft → Except Halt (List FieldInfo × Draft)
  | _, [], draft => .ok ([], draft)
  | position, field :: fields, draft =>
    match walkField S catalog strict ensureMessage owner position field draft with
    | .error halt => .error halt
    | .ok (info, draft) =>
      match walkFields owner (position + 1) fields draft with
      | .error halt => .error halt
      | .ok (infos, draft) => .ok (info :: infos, draft)

/-- Drafts a message type and all it refers to, nested at most as deep as the fuel says. -/
def walk : Nat → S.Message → Draft → Except Halt Draft
  | 0, _, _ => .error .exhausted
  | fuel + 1, m, draft =>
    let name := S.messageName m
    if name = "" then .error (.rejected .emptyTypeName draft.trail)
    else if (S.message m).isMapEntry then .error (.rejected (.malformedMapEntry name) draft.trail)
    else if name ∈ draft.inProgress then .ok (draft.revisit name)
    else if catalog.messages.contains name || draft.messages.contains name then .ok draft
    else
      match walkFields S catalog strict (walk fuel) name 0 (S.message m).fields
          (draft.enter name) with
      | .error halt => .error halt
      | .ok (infos, draft) =>
        let draft := draft.leave name
        match MessageInfo.ofFields? name infos with
        | .error fault => .error (.rejected fault draft.trail)
        | .ok info => .ok (draft.stageMessage info)

/-- Types in progress have different names, so a walk is nested no deeper than there are types. -/
def enoughFuel : Nat := S.allMessages.length + 1

def draftMessage (m : S.Message) : Except Halt Draft :=
  walk S catalog strict (enoughFuel S) m .empty

def draftEnum (e : S.Enum) : Except Halt Draft := ensureEnum S catalog strict e .empty

end Registration

end MessageRegistry
