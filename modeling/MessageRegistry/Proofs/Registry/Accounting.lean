import MessageRegistry.Proofs.Registry.Log
import MessageRegistry.Proofs.Registry.Rejection

/-!
The counts of a registry. Main statement: as long as no count passes 64 bits, the counts and the
log account for a run: registrations are the types that are described, each with a line of its own,
hits and misses are the requests that were answered from the catalog or in vain.
-/
namespace MessageRegistry

theorem Stats.saturate_of_lt {count : Nat} (h : count < UInt64.size) : saturate count = count :=
  if_pos h

namespace Registry
variable {S : Schema} {registry : Registry} {m : S.Message}

theorem Reachable.named (h : Reachable S registry) {name : String}
    (hk : registry.catalog.messages.contains name = true) : name ≠ "" := by
  obtain ⟨shared, hm⟩ := Option.isSome_iff_exists.mp hk
  obtain ⟨m, rfl, _, hwf⟩ := h.sound.message name shared hm
  exact hwf.named

/-- The operations of a run, each with the registry that it meets. -/
def stages (registry : Registry) : List (Operation S) → List (Registry × Operation S)
  | [] => []
  | operation :: operations =>
    (registry, operation) :: (registry.perform operation).registry.stages operations

def describesKnown (stage : Registry × Operation S) : Bool :=
  match stage.2 with
  | .describe _ => !(stage.1.perform stage.2).answer.isFailure
  | _ => false

def describesUnknown (stage : Registry × Operation S) : Bool :=
  match stage.2 with
  | .describe _ => (stage.1.perform stage.2).answer.isFailure
  | _ => false

def registersKnown (stage : Registry × Operation S) : Bool :=
  match stage.2 with
  | .register m | .registerTypeOf m => stage.1.catalog.messages.contains (S.messageName m)
  | _ => false

theorem describesKnown_and_registersKnown (stage : Registry × Operation S) :
    ¬ (describesKnown stage = true ∧ registersKnown stage = true) := by
  obtain ⟨registry, operation⟩ := stage
  cases operation <;> simp [describesKnown, registersKnown]

theorem Registered.misses {outcome : Outcome (Except Failure (Shared MessageInfo))}
    (h : Registered S registry m outcome) :
    outcome.registry.stats.misses = registry.stats.misses := by
  cases h <;> rfl

theorem Registered.hits {outcome : Outcome (Except Failure (Shared MessageInfo))}
    (h : Registered S registry m outcome) (hr : Reachable S registry) :
    outcome.registry.stats.hits =
      if registry.catalog.messages.contains (S.messageName m) then
        Stats.saturate (registry.stats.hits + 1)
      else registry.stats.hits := by
  cases h with
  | unnamed hn => exact (if_neg fun hk => hr.named hk hn).symm
  | known _ hk => exact (if_pos (Option.isSome_iff_exists.mpr ⟨_, hk⟩)).symm
  | rejected _ hk _ | published _ hk _ _ =>
    exact (if_neg ((Table.not_contains_iff _ _).mpr hk)).symm

theorem stats_registerEnum (registry : Registry) (e : S.Enum) :
    (registry.registerEnum S e).registry.stats = registry.stats := by
  have h : RegisteredEnum S registry e (registry.registerEnum S e) := registeredEnum_registerEnum
  generalize registry.registerEnum S e = outcome at h
  cases h <;> rfl

theorem stats_perform_of_typeName?_eq_none {operation : Operation S}
    (h : operation.typeName? = none) :
    (registry.perform operation).registry.stats = registry.stats := by
  cases operation with
  | register _ | registerTypeOf _ | describe _ => cases h
  | registerEnum e =>
    rw [perform_registerEnum]
    exact stats_registerEnum registry e
  | describeEnum _ | describeEnumValue _ | contains _ | size | isEmpty | typeNames | config => rfl

theorem hits_perform (hr : Reachable S registry) (operation : Operation S) :
    (registry.perform operation).registry.stats.hits =
      if describesKnown (registry, operation) || registersKnown (registry, operation) then
        Stats.saturate (registry.stats.hits + 1)
      else registry.stats.hits := by
  cases operation with
  | register m | registerTypeOf m =>
    have h : Registered S registry m (registry.register S m) := registered_register
    exact h.hits hr
  | describe name =>
    cases hm : registry.catalog.message? (Name.normalize name) <;>
      simp [describesKnown, registersKnown, perform, Registry.describe, hm, Outcome.map,
        Answer.ofExcept, Answer.isFailure, countHit, countMiss, Stats.countHit, Stats.countMiss]
  | registerEnum _ | describeEnum _ | describeEnumValue _ | contains _ | size | isEmpty
  | typeNames | config => rw [stats_perform_of_typeName?_eq_none rfl]; rfl

theorem misses_perform (registry : Registry) (operation : Operation S) :
    (registry.perform operation).registry.stats.misses =
      if describesUnknown (registry, operation) then Stats.saturate (registry.stats.misses + 1)
      else registry.stats.misses := by
  cases operation with
  | register m | registerTypeOf m =>
    have h : Registered S registry m (registry.register S m) := registered_register
    exact h.misses
  | describe name =>
    cases hm : registry.catalog.message? (Name.normalize name) <;>
      simp [describesUnknown, perform, Registry.describe, hm, Outcome.map, Answer.ofExcept,
        Answer.isFailure, countHit, countMiss, Stats.countHit, Stats.countMiss]
  | registerEnum _ | describeEnum _ | describeEnumValue _ | contains _ | size | isEmpty
  | typeNames | config => rw [stats_perform_of_typeName?_eq_none rfl]; rfl

/-- A count that every operation of one kind raises by one. -/
theorem count_after (count : Registry → Nat) (counted : Registry × Operation S → Bool)
    (step : ∀ registry operation, Reachable S registry →
      count (registry.perform operation).registry =
        if counted (registry, operation) then Stats.saturate (count registry + 1)
        else count registry)
    (hr : Reachable S registry) (operations : List (Operation S))
    (hlt : count registry + (registry.stages operations).countP counted < UInt64.size) :
    count (registry.after operations) =
      count registry + (registry.stages operations).countP counted := by
  induction operations generalizing registry with
  | nil => rfl
  | cons operation operations ih =>
    have hstep := step registry operation hr
    rw [stages, List.countP_cons] at hlt ⊢
    rw [after_cons]
    by_cases hc : counted (registry, operation) = true
    · rw [if_pos hc] at hstep hlt ⊢
      rw [Stats.saturate_of_lt (by omega)] at hstep
      rw [ih (hr.perform operation) (by omega), hstep]
      omega
    · rw [if_neg hc] at hstep hlt ⊢
      rw [ih (hr.perform operation) (by omega), hstep]
      omega

/-- The registrations of a registry are the types it describes, and its log has a line for each of
them, and one for each enum. Since its creation it has counted a hit for every description that was
asked for and given and every registration of a type that was known, and a miss for every
description that was asked for in vain; other operations, and registrations that fail, count
nothing. -/
theorem counts_account_for_run (id : Nat) (config : Config) (operations : List (Operation S))
    (hsize : ((create id config).registry.after operations).size < UInt64.size)
    (hhits : (create id config).registry.stats.hits +
      (((create id config).registry.stages operations).countP describesKnown +
        ((create id config).registry.stages operations).countP registersKnown) < UInt64.size)
    (hmisses : (create id config).registry.stats.misses +
      ((create id config).registry.stages operations).countP describesUnknown < UInt64.size) :
    ((create id config).registry.after operations).stats.registrations =
      ((create id config).registry.after operations).size ∧
    (∀ name, (((create id config).events ++ (create id config).registry.reports operations).map
        Event.text).count ("DEBUG [TypeRegistry::publish] type " ++ name) =
      if name ∈ ((create id config).registry.after operations).catalog.messages.keys then 1
      else 0) ∧
    (∀ name, (((create id config).events ++ (create id config).registry.reports operations).map
        Event.text).count ("DEBUG [TypeRegistry::publish] enum " ++ name) =
      if name ∈ ((create id config).registry.after operations).catalog.enums.keys then 1
      else 0) ∧
    ((create id config).registry.after operations).stats.hits =
      (create id config).registry.stats.hits +
        (((create id config).registry.stages operations).countP describesKnown +
          ((create id config).registry.stages operations).countP registersKnown) ∧
    ((create id config).registry.after operations).stats.misses =
      (create id config).registry.stats.misses +
        ((create id config).registry.stages operations).countP describesUnknown ∧
    ∀ (registry : Registry) (operation : Operation S),
      operation.typeName? = none ∨ operation.isRegistration = true ∧
        (registry.perform operation).answer.isFailure = true →
      (registry.perform operation).registry.stats = registry.stats := by
  have hcreated : Reachable S (create id config).registry := .create id config
  have hlogged := (logged_create id config).trans
    (logged_after (create id config).registry operations)
  generalize create id config = created at *
  refine ⟨?_, hlogged.count_typeLine, hlogged.count_enumLine, ?_, ?_, ?_⟩
  · rw [(hcreated.after operations).counted.registrations]
    exact Stats.saturate_of_lt hsize
  · rw [← countP_or describesKnown_and_registersKnown] at hhits ⊢
    exact count_after (·.stats.hits) _ (fun registry operation hr => hits_perform hr operation)
      hcreated operations hhits
  · exact count_after (·.stats.misses) _
      (fun registry operation _ => misses_perform registry operation) hcreated operations hmisses
  · rintro registry operation (hn | ⟨hr, hf⟩)
    · exact stats_perform_of_typeName?_eq_none hn
    · obtain ⟨reason, hreason⟩ := Answer.isFailure_iff.mp hf
      rw [(perform_of_failure hr hreason).2]

/-- A node is registered and its leaf comes with it; a holder is rejected. -/
def treeRun : List (Operation .tree) :=
  [.describe "t.Leaf", .register Schema.tree.node, .describe ".t.Leaf",
    .registerTypeOf Schema.tree.leaf, .register Schema.tree.holder]

theorem counts_account_for_treeRun :
    ((create 0 {}).registry.after treeRun).stats.registrations =
      ((create 0 {}).registry.after treeRun).size ∧
    ((create 0 {}).registry.after treeRun).stats.hits =
      (create 0 {}).registry.stats.hits + (1 + 1) ∧
    ((create 0 {}).registry.after treeRun).stats.misses =
      (create 0 {}).registry.stats.misses + 1 := by
  obtain ⟨hfound, hmet, hmissed, hsize, hhits, hmisses⟩ :
      ((create 0 {}).registry.stages treeRun).countP describesKnown = 1 ∧
      ((create 0 {}).registry.stages treeRun).countP registersKnown = 1 ∧
      ((create 0 {}).registry.stages treeRun).countP describesUnknown = 1 ∧
      ((create 0 {}).registry.after treeRun).size < UInt64.size ∧
      (create 0 {}).registry.stats.hits + (1 + 1) < UInt64.size ∧
      (create 0 {}).registry.stats.misses + 1 < UInt64.size := by
    decide +kernel
  have hcounts := counts_account_for_run 0 {} treeRun hsize
  rw [hfound, hmet, hmissed] at hcounts
  obtain ⟨hregistrations, _, _, hhits, hmisses, _⟩ := hcounts hhits hmisses
  exact ⟨hregistrations, hhits, hmisses⟩

end Registry
end MessageRegistry
