import MessageRegistry.Proofs.Name
import MessageRegistry.Proofs.Registry.Seed

/-!
Names in a registry that is strict about them. Main statement: whatever it publishes has fields and
enum values that are named by identifiers, and fields that are exported as identifiers.
-/
namespace MessageRegistry.Registry
variable {S : Schema} {registry : Registry}

/-- Fields are named by identifiers, be they read by characters or by bytes, and so are enum values
inside their enums. The exported name of a field has no underscore, and starts with a capital: it is
the declared name, with each part between underscores capitalized, and with an `X` in front if it
starts with an underscore. -/
theorem strict_names_are_identifiers (hr : Reachable S registry)
    (hstrict : registry.config.strictNames = true) :
    (∀ name shared, registry.catalog.message? name = some shared →
      ∀ field ∈ shared.value.fields,
        Name.MatchesIdentifier field.name ∧
        Name.isIdentifierBytes (Name.utf8Bytes field.name) = true ∧
        Name.MatchesExported field.exportedName ∧
        field.getterName = "Get" ++ field.exportedName ∧
        field.exportedName.toList = (if field.name.toList.head? = some '_' then ['X'] else []) ++
          (field.name.toList.splitOn '_').flatMap (·.modifyHead Char.toUpper)) ∧
    ∀ name shared, registry.catalog.enum? name = some shared →
      ∀ value ∈ shared.value.values, ∃ short, value.name = Name.qualify name short ∧
        Name.lastComponent value.name = short ∧ Name.MatchesIdentifier short ∧
        Name.isIdentifierBytes (Name.utf8Bytes short) = true := by
  have hs := hr.sound
  rw [hstrict] at hs
  constructor
  · intro name shared hm fieldInfo hf
    obtain ⟨m, _, hd, hwf⟩ := hs.message name shared hm
    obtain ⟨position, field, hfield, hdescribes⟩ := hd.exists_field hf
    obtain ⟨hmatches, hbytes⟩ :=
      Name.matches_and_isIdentifierBytes (hwf.identifiers rfl field hfield)
    rw [hdescribes.getterName, hdescribes.exportedName, hdescribes.name]
    exact ⟨hmatches, hbytes, hmatches.exported, rfl, Name.toList_exported_of_matches hmatches⟩
  · intro name shared he value hv
    obtain ⟨e, rfl, hd, hwf⟩ := hs.enum name shared he
    rw [hd.values] at hv
    obtain ⟨decl, hdecl, rfl⟩ := List.mem_map.mp hv
    have hident := hwf.identifiers rfl decl hdecl
    have hlast : Name.lastComponent (Name.qualify (S.enumName e) decl.name) = decl.name := by
      rw [Name.lastComponent_qualify,
        Name.lastComponent_eq_self (Name.not_mem_of_isIdentifier hident)]
    exact ⟨decl.name, rfl, hlast, Name.matches_and_isIdentifierBytes hident⟩

theorem strict_names_are_identifiers_any :
    ∃ shared field, (create 0 {}).registry.catalog.message? "google.protobuf.Any" = some shared ∧
      field ∈ shared.value.fields ∧ field.name = "type_url" ∧
      Name.MatchesExported field.exportedName ∧ field.exportedName = "TypeUrl" := by
  have hany : WellKnownMessage.any ∈ WellKnownMessage.seeded := List.mem_cons_self
  obtain ⟨shared, hm, hd⟩ := create_describes_seeded 0 {} hany
  obtain ⟨field, hposition, hdescribes⟩ := hd.field 0 (.scalar "type_url" 1 .string) rfl
  have hf := List.mem_of_getElem? hposition
  have hname : field.name = "type_url" := hdescribes.name
  have hr : Reachable .empty (create 0 {}).registry := .create 0 {}
  have hstrict : (create 0 {}).registry.config.strictNames = true := by rw [create_config]
  obtain ⟨_, _, hexported, _, hparts⟩ :=
    (strict_names_are_identifiers hr hstrict).1 "google.protobuf.Any" shared hm field hf
  refine ⟨shared, field, hm, hf, hname, hexported, String.toList_inj.mp ?_⟩
  rw [hparts, hname]
  decide

end MessageRegistry.Registry
