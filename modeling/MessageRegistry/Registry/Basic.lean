import MessageRegistry.Catalog
import MessageRegistry.Event

/-!
A registry: its configuration, the descriptions it has published, and counts of its work. An
operation answers, reports events, and leaves a registry behind.
-/
namespace MessageRegistry

structure Config where
  /-- How many types to make room for at first; there may be more. -/
  typeCapacity : Nat := 64
  /-- Whether fields and enum values have to be named by identifiers. -/
  strictNames : Bool := true
  deriving DecidableEq, Repr

structure Stats where
  /-- Requests for a message type that was known. -/
  hits : Nat
  /-- Descriptions asked for in vain. -/
  misses : Nat
  /-- Message types published. -/
  registrations : Nat
  deriving DecidableEq, Repr

namespace Stats

def zero : Stats := ⟨0, 0, 0⟩

/-- A count that would pass 64 bits stays at their maximum. -/
def saturate (count : Nat) : Nat := if count < UInt64.size then count else UInt64.size - 1

def countHit (stats : Stats) : Stats := { stats with hits := saturate (stats.hits + 1) }

def countMiss (stats : Stats) : Stats := { stats with misses := saturate (stats.misses + 1) }

def countRegistrations (added : Nat) (stats : Stats) : Stats :=
  { stats with registrations := saturate (stats.registrations + added) }

end Stats

structure Registry where
  /-- Tells the objects of one registry from those of another. -/
  id : Nat
  config : Config
  catalog : Catalog
  stats : Stats
  deriving DecidableEq, Repr

namespace Registry

/-- A registry that knows nothing yet. -/
def bare (id : Nat) (config : Config) : Registry := ⟨id, config, .empty, .zero⟩

def countHit (registry : Registry) : Registry :=
  { registry with stats := registry.stats.countHit }

def countMiss (registry : Registry) : Registry :=
  { registry with stats := registry.stats.countMiss }

end Registry

structure Outcome (α : Type) where
  answer : α
  events : List Event
  registry : Registry

namespace Outcome
variable {α β : Type}

def map (f : α → β) (outcome : Outcome α) : Outcome β :=
  ⟨f outcome.answer, outcome.events, outcome.registry⟩

/-- One operation after another. -/
def andThen (outcome : Outcome α) (next : α → Registry → Outcome β) : Outcome β :=
  let following := next outcome.answer outcome.registry
  ⟨following.answer, outcome.events ++ following.events, following.registry⟩

end Outcome
end MessageRegistry
