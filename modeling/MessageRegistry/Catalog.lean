import MessageRegistry.Info

/-!
The published descriptions. Each one is an object of its own, which answers share: a handle tells
objects apart even where their contents agree.
-/
namespace MessageRegistry

/-- The identity of a published object: the registry that published it, and its place in the
order of that registry's publications. -/
structure Handle where
  registry : Nat
  serial : Nat
  deriving DecidableEq, Repr

structure Shared (α : Type) where
  handle : Handle
  value : α
  deriving DecidableEq, Repr

structure Catalog where
  messages : Table String (Shared MessageInfo)
  enums : Table String (Shared EnumInfo)
  /-- The values of all enums by full name. -/
  enumValues : Table String EnumValueInfo
  nextSerial : Nat
  deriving DecidableEq, Repr

namespace Catalog

def empty : Catalog := ⟨.empty, .empty, .empty, 0⟩

def message? (catalog : Catalog) (name : String) : Option (Shared MessageInfo) :=
  catalog.messages.get? name

def enum? (catalog : Catalog) (name : String) : Option (Shared EnumInfo) :=
  catalog.enums.get? name

def enumValue? (catalog : Catalog) (name : String) : Option EnumValueInfo :=
  catalog.enumValues.get? name

/-- Publishes a description under its name as a new object of the registry `owner`. -/
def publishMessage (owner : Nat) (catalog : Catalog) (info : MessageInfo) : Catalog :=
  { catalog with
    messages := catalog.messages.insert info.name ⟨⟨owner, catalog.nextSerial⟩, info⟩
    nextSerial := catalog.nextSerial + 1 }

def publishEnum (owner : Nat) (catalog : Catalog) (info : EnumInfo) : Catalog :=
  { catalog with
    enums := catalog.enums.insert info.name ⟨⟨owner, catalog.nextSerial⟩, info⟩
    enumValues := info.values.foldl (fun values value => values.insert value.name value)
      catalog.enumValues
    nextSerial := catalog.nextSerial + 1 }

/-- Publishes messages and then enums, each in the given order. -/
def publish (owner : Nat) (catalog : Catalog) (messages : List MessageInfo)
    (enums : List EnumInfo) : Catalog :=
  enums.foldl (publishEnum owner) (messages.foldl (publishMessage owner) catalog)

end Catalog
end MessageRegistry
