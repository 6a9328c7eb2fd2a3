import MessageRegistry.Proofs.Name
import MessageRegistry.Proofs.Registry.Accounting
import MessageRegistry.Proofs.Registry.LookUp

/-!
Questions about message types. Main statement: all of them are answered from one catalog, which is
never empty and which no question changes, so that their answers agree.
-/
namespace MessageRegistry.Registry
variable {S : Schema} {registry : Registry} {query : String}

theorem Reachable.exists_seeded (hr : Reachable S registry) {message : WellKnownMessage}
    (h : message ∈ WellKnownMessage.seeded) :
    ∃ shared, registry.catalog.message? message.name = some shared := by
  induction hr with
  | create id config =>
    obtain ⟨shared, hm, _⟩ := create_describes_seeded id config h
    exact ⟨shared, hm⟩
  | perform operation _ ih =>
    obtain ⟨shared, hm⟩ := ih
    exact ⟨shared, (step_perform operation).message? hm⟩

theorem Reachable.isEmpty_eq_false (hr : Reachable S registry) : registry.isEmpty = false := by
  have hany : WellKnownMessage.any ∈ WellKnownMessage.seeded := List.mem_cons_self
  obtain ⟨shared, hm⟩ := hr.exists_seeded hany
  rw [isEmpty, List.isEmpty_eq_false_iff]
  intro hnil
  rw [Catalog.message?, Table.get?, hnil] at hm
  cases hm

section TypeNames

theorem pairwise_lt_typeNames (hr : Reachable S registry) :
    registry.typeNames.Pairwise fun name other => Name.utf8Bytes name < Name.utf8Bytes other :=
  Name.pairwise_lt_sort hr.counted.names

theorem length_typeNames (registry : Registry) : registry.typeNames.length = registry.size := by
  rw [typeNames, Name.length_sort, Table.length_keys, size]

theorem contains_iff_mem_typeNames :
    registry.contains query = true ↔ Name.normalize query ∈ registry.typeNames := by
  rw [mem_typeNames_iff]
  exact Option.isSome_iff_exists

theorem empty_not_mem_typeNames (hr : Reachable S registry) : "" ∉ registry.typeNames := by
  intro h
  obtain ⟨shared, hm⟩ := mem_typeNames_iff.mp h
  exact hr.named (Option.isSome_iff_exists.mpr ⟨shared, hm⟩) rfl

end TypeNames

theorem contains_iff_describe :
    registry.contains query = true ↔ ∃ info, (registry.describe query).answer = .ok info := by
  rw [contains_iff_mem_typeNames, mem_typeNames_iff]
  exact exists_congr fun _ => describe_eq_ok_iff.symm

theorem describe_eq_error {reason : Failure}
    (h : (registry.describe query).answer = .error reason) :
    reason = .notFound (Name.normalize query) := by
  unfold describe at h
  cases hm : registry.catalog.message? (Name.normalize query) with
  | some shared => simp [hm] at h
  | none => simpa [hm] using h.symm

/-- A question for a description is counted, as a hit or as a miss. -/
theorem registry_describe (registry : Registry) (query : String) :
    (registry.describe query).registry =
      if registry.contains query then registry.countHit else registry.countMiss := by
  have hc : registry.contains query =
      (registry.catalog.message? (Name.normalize query)).isSome := rfl
  rw [hc, describe]
  cases registry.catalog.message? (Name.normalize query) <;> rfl

theorem registry_perform_of_question {operation : Operation S}
    (h : operation.isRegistration = false) (hd : ∀ query, operation ≠ .describe query) :
    (registry.perform operation).registry = registry := by
  cases operation with
  | register _ | registerTypeOf _ | registerEnum _ => cases h
  | describe query => exact absurd rfl (hd query)
  | describeEnum _ | describeEnumValue _ | contains _ | size | isEmpty | typeNames | config => rfl

/-- A name is contained, described and listed, or none of these. A description has the name that was
asked for, and a failure tells it; a leading dot is ignored. The names are listed in the order of
their bytes, each of them once, and there is at least one. No question changes the catalog, and only
a question for a description changes the counts. -/
theorem questions_agree (hr : Reachable S registry) :
    (∀ query,
      (registry.contains query = true ↔ ∃ info, (registry.describe query).answer = .ok info) ∧
      (registry.contains query = true ↔ Name.normalize query ∈ registry.typeNames) ∧
      (∀ info, (registry.describe query).answer = .ok info →
        info.value.name = Name.normalize query) ∧
      (∀ reason, (registry.describe query).answer = .error reason →
        reason = .notFound (Name.normalize query)) ∧
      (registry.describe query).registry =
        if registry.contains query then registry.countHit else registry.countMiss) ∧
    (registry.typeNames.Pairwise fun name other =>
      Name.utf8Bytes name < Name.utf8Bytes other) ∧
    "" ∉ registry.typeNames ∧
    registry.typeNames.length = registry.size ∧
    registry.isEmpty = false ∧
    ∀ operation : Operation S, operation.isRegistration = false →
      (registry.perform operation).registry.catalog = registry.catalog ∧
      ((∀ query, operation ≠ .describe query) →
        (registry.perform operation).registry = registry) := by
  refine ⟨fun query => ⟨contains_iff_describe, contains_iff_mem_typeNames, fun info hok => ?_,
    fun reason hfailed => describe_eq_error hfailed, registry_describe registry query⟩,
    pairwise_lt_typeNames hr, empty_not_mem_typeNames hr, length_typeNames registry,
    hr.isEmpty_eq_false, fun operation hquestion => ⟨catalog_perform hquestion, fun hd => ?_⟩⟩
  · exact hr.sound.name_eq (describe_eq_ok_iff.mp hok)
  · exact registry_perform_of_question hquestion hd

/-- A new registry answers for a well-known type, asked for with a leading dot or without. A dot
alone asks for the empty name, which is never found. -/
theorem questions_agree_seeded :
    (∃ info, ((create 0 {}).registry.describe ".google.protobuf.Any").answer = .ok info ∧
      info.value.name = "google.protobuf.Any") ∧
    "google.protobuf.Any" ∈ (create 0 {}).registry.typeNames ∧
    ((create 0 {}).registry.describe ".").answer = .error (.notFound "") := by
  have hr : Reachable .empty (create 0 {}).registry := .create 0 {}
  have hany : WellKnownMessage.any ∈ WellKnownMessage.seeded := List.mem_cons_self
  have hname : Name.normalize ".google.protobuf.Any" = WellKnownMessage.any.name :=
    Name.normalize_append_dot "google.protobuf.Any"
  have hdot : Name.normalize "." = "" := Name.normalize_append_dot ""
  obtain ⟨hagree, _, hempty, _⟩ := questions_agree hr
  obtain ⟨hdescribe, hlisted, hdescribed, _⟩ := hagree ".google.protobuf.Any"
  obtain ⟨hdotDescribe, hdotListed, _, hdotFailed, _⟩ := hagree "."
  have hcontains : (create 0 {}).registry.contains ".google.protobuf.Any" = true := by
    rw [hlisted, hname]
    exact mem_typeNames_iff.mpr (hr.exists_seeded hany)
  have hmem := hlisted.mp hcontains
  rw [hname] at hmem
  refine ⟨?_, hmem, ?_⟩
  · obtain ⟨info, hok⟩ := hdescribe.mp hcontains
    exact ⟨info, hok, (hdescribed info hok).trans hname⟩
  · cases hanswer : ((create 0 {}).registry.describe ".").answer with
    | ok info =>
      have hlistedDot := hdotListed.mp (hdotDescribe.mpr ⟨info, hanswer⟩)
      rw [hdot] at hlistedDot
      exact absurd hlistedDot hempty
    | error reason => rw [hdotFailed reason hanswer, hdot]

end MessageRegistry.Registry
