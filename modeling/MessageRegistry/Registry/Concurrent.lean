import MessageRegistry.Registry.Register

/-!
Threads that register the same message type at once. A registration has three sections that no
other thread can break into: a look at the catalog, the count of a hit found by it, and the
exclusive part after a miss. Between them the sections of the threads interleave in any order.
-/
namespace MessageRegistry.Concurrent

abbrev Reply := Except Failure (Shared MessageInfo)

inductive Thread
  | ready
  /-- The type was found; the hit is not yet counted. -/
  | found (info : Shared MessageInfo)
  | missed
  | finished (reply : Reply)

structure State where
  registry : Registry
  threads : List Thread
  events : List Event

variable (S : Schema) (m : S.Message)

def Thread.advance (registry : Registry) : Thread → Outcome Thread
  | .ready =>
    if S.messageName m = "" then ⟨.finished (.error (.rejected .emptyTypeName)), [], registry⟩
    else
      match registry.catalog.message? (S.messageName m) with
      | some info => ⟨.found info, [], registry⟩
      | none => ⟨.missed, [], registry⟩
  | .found info => ⟨.finished (.ok info), [], registry.countHit⟩
  | .missed => (registry.registerExclusively S m).map .finished
  | .finished reply => ⟨.finished reply, [], registry⟩

def State.step (state : State) (position : Nat) : State :=
  match state.threads[position]? with
  | none => state
  | some thread =>
    let outcome := thread.advance S m state.registry
    { registry := outcome.registry
      threads := state.threads.set position outcome.answer
      events := state.events ++ outcome.events }

def State.run (state : State) (schedule : List Nat) : State := schedule.foldl (State.step S m) state

def State.start (registry : Registry) (threadCount : Nat) : State :=
  ⟨registry, List.replicate threadCount .ready, []⟩

def Thread.reply? : Thread → Option Reply
  | .finished reply => some reply
  | _ => none

def State.replies (state : State) : List Reply := state.threads.filterMap (·.reply?)

/-- Whether two replies are the same object or equal failures. -/
def agree : Reply → Reply → Bool
  | .ok a, .ok b => a.handle == b.handle
  | .error a, .error b => a == b
  | _, _ => false

/-- All threads look at the catalog before any of them goes on. -/
def lockstep (threadCount : Nat) : List Nat := List.range threadCount ++ List.range threadCount

/-- Registers a message type from several threads in lockstep. -/
def register (registry : Registry) (threadCount : Nat) : Outcome (List Reply) :=
  let final := (State.start registry threadCount).run S m (lockstep threadCount)
  ⟨final.replies, final.events, final.registry⟩

end MessageRegistry.Concurrent
