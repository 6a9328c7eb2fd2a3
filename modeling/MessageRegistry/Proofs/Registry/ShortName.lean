import MessageRegistry.Proofs.Info.ShortName
import MessageRegistry.Proofs.Registry.EnumValue

/-!
Looking up the values of published enums by short name and by number. Main statement: short names
find what was declared by them if no declared name has a dot, as it is where names are strict; a
number finds the first value declared with it.
-/
namespace MessageRegistry.Registry
variable {S : Schema} {registry : Registry}

/-- A short name finds the first value declared by a name with that last component. This is the
declared value itself, for all short names of an enum, exactly if none of them has a dot. -/
theorem published_values_found (hr : Reachable S registry) {name : String}
    {shared : Shared EnumInfo} (he : registry.catalog.enum? name = some shared) :
    (∃ e, S.enumName e = name ∧ S.DescribesEnum e shared.value) ∧
    ∀ e, S.DescribesEnum e shared.value →
      (S.FindsDeclared e shared.value ↔ ∀ decl ∈ (S.enum e).values, '.' ∉ decl.name.toList) ∧
      (registry.config.strictNames = true → S.FindsDeclared e shared.value) ∧
      (∀ short, shared.value.valueNamed? short =
        ((S.enum e).values.find? fun decl => Name.lastComponent decl.name = short).map
          (·.describe (S.enumName e))) ∧
      ∀ number, shared.value.valueNumbered? number =
        ((S.enum e).values.find? fun decl => decl.number = number).map
          (·.describe (S.enumName e)) := by
  obtain ⟨origin, hn, ho, hwf⟩ := hr.sound.enum name shared he
  refine ⟨⟨origin, hn, ho⟩, fun e hd => ?_⟩
  have hwf := hd.wellFormed ho hwf
  have hstrict : registry.config.strictNames = true →
      ∀ decl ∈ (S.enum e).values, '.' ∉ decl.name.toList :=
    fun hs decl hdecl => Name.not_mem_of_isIdentifier (hwf.identifiers hs decl hdecl)
  exact ⟨hd.findsDeclared_iff hwf, fun hs => hd.findsDeclared_of_dotless hwf (hstrict hs),
    hd.valueNamed?_eq, hd.valueNumbered?_eq⟩

theorem published_values_found_tree :
    ∃ shared, ((create 0 {}).registry.after
        [.registerEnum Schema.tree.color]).catalog.enum? "t.Color" = some shared ∧
      shared.value.valueNamed? "BLUE" = some ⟨"t.Color.BLUE", "t.Color", 1⟩ := by
  have hcolor : (((create 0 {}).registry.after
      [.registerEnum Schema.tree.color]).catalog.enum? "t.Color").any (fun shared =>
        shared.value = (Schema.tree.enum Schema.tree.color).describe) = true := by
    decide +kernel
  obtain ⟨shared, he, hdescribed⟩ := (Option.any_eq_true _ _).mp hcolor
  have hd : Schema.tree.DescribesEnum Schema.tree.color shared.value := by
    rw [of_decide_eq_true hdescribed]
    exact Schema.describesEnum_describe Schema.tree.color
  have hr : Reachable .tree ((create 0 {}).registry.after [.registerEnum Schema.tree.color]) :=
    (Reachable.create 0 {}).after _
  have hstrict : ((create 0 {}).registry.after
      [.registerEnum Schema.tree.color]).config.strictNames = true := by
    rw [after_config, create_config]
  have hfinds := ((published_values_found hr he).2 _ hd).2.1 hstrict
  exact ⟨shared, he, hfinds.found ⟨"BLUE", 1⟩ (by decide +kernel)⟩

/-- Where names are not strict, a value declared by a name with a dot is not found by that name, but
by what stands behind the dot, which was not declared. -/
theorem published_values_found_joined :
    ∃ shared, ((create 0 { strictNames := false }).registry.after
        [.registerEnum Schema.joined.outer]).catalog.enum? "a" = some shared ∧
      Schema.joined.DescribesEnum Schema.joined.outer shared.value ∧
      (Schema.joined.enum Schema.joined.outer).values = [⟨"b.C", 1⟩] ∧
      shared.value.valueNamed? "b.C" = none ∧
      shared.value.valueNamed? "C" = some ⟨"a.b.C", "a", 1⟩ := by
  have houter : (((create 0 { strictNames := false }).registry.after
      [.registerEnum Schema.joined.outer]).catalog.enum? "a").any (fun shared =>
        shared.value = (Schema.joined.enum Schema.joined.outer).describe) = true := by
    decide +kernel
  obtain ⟨shared, he, hdescribed⟩ := (Option.any_eq_true _ _).mp houter
  have hvalue := of_decide_eq_true hdescribed
  refine ⟨shared, he, ?_, rfl, ?_, ?_⟩
  · rw [hvalue]
    exact Schema.describesEnum_describe Schema.joined.outer
  · rw [hvalue]
    decide +kernel
  · rw [hvalue]
    decide +kernel

end MessageRegistry.Registry
