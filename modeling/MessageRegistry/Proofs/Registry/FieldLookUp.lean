import MessageRegistry.Proofs.Info.FieldLookUp
import MessageRegistry.Proofs.Registry.Reachable

/-!
Looking up the fields of published types. Main statement: every field is found under its declared
name, its exported name, its number and its position, and nothing else is found.
-/
namespace MessageRegistry

namespace Schema
variable {S : Schema} {strict : Bool} {m : S.Message} {info : MessageInfo}

theorem Describes.indexed (h : S.Describes m info) (hwf : S.WellFormedMessage strict m) :
    info.Indexed := by
  have hnames := h.map_fields fun _ _ _ hd => hd.name
  have hexported := h.map_fields fun _ _ _ hd => hd.exportedName
  have hnumbers := h.map_fields fun _ _ _ hd => hd.number
  constructor
  · exact h.index
  · intro position fieldInfo hp
    obtain ⟨field, _, hd⟩ := h.declared hp
    exact hd.index
  · intro fieldInfo hf
    obtain ⟨position, field, _, hd⟩ := h.exists_field hf
    rw [hd.exportedName, hd.name]
  · rw [hnames]
    exact hwf.names
  · rw [hexported]
    exact hwf.exportedNames
  · rw [hnumbers]
    exact hwf.numbers

/-- Fields whose names are not ASCII; a capital may have two letters. -/
def letters : Schema where
  messageCount := 1
  enumCount := 0
  messages := #v[
    ⟨"l.Letter", [.scalar "ß" 1 .bool, .scalar "ss_ß" 2 .bool, .scalar "_ß" 3 .bool], false⟩]
  enums := empty.enums

def letters.letter : letters.Message := .declared ⟨0, by decide⟩

end Schema

namespace Registry
variable {S : Schema} {registry : Registry}

/-- Look-ups in a published type are exact. Declared names go before exported ones, and yet no field
is hidden behind the declared name of another one. -/
theorem published_fields_found (hr : Reachable S registry) {name : String}
    {shared : Shared MessageInfo} (hm : registry.catalog.message? name = some shared) :
    (∀ field ∈ shared.value.fields,
      shared.value.fieldNamed? field.name = some field ∧
      shared.value.fieldNamed? field.exportedName = some field ∧
      shared.value.fieldNumbered? field.number = some field ∧
      shared.value.fieldAt? field.index = some field) ∧
    (∀ query field, shared.value.fieldNamed? query = some field →
      field ∈ shared.value.fields ∧ (field.name = query ∨ field.exportedName = query)) ∧
    (∀ number field, shared.value.fieldNumbered? number = some field →
      field ∈ shared.value.fields ∧ field.number = number) ∧
    (∀ position, (shared.value.fieldAt? position).isSome = true ↔
      position < shared.value.fieldCount) ∧
    ∀ position, position ∈ shared.value.index.byName.values ∨
      position ∈ shared.value.index.byExportedName.values ∨
      position ∈ shared.value.index.byNumber.values → position < shared.value.fieldCount := by
  obtain ⟨m, _, hd, hwf⟩ := hr.sound.message name shared hm
  have h : shared.value.Indexed := hd.indexed hwf
  refine ⟨fun field hf => ?_, fun _ _ hq => h.of_fieldNamed? hq,
    fun _ _ hn => h.of_fieldNumbered? hn, fun position => ?_, fun _ hp => h.lt_fieldCount hp⟩
  · exact ⟨h.fieldNamed?_name hf, h.fieldNamed?_exportedName hf, h.fieldNumbered?_number hf,
      h.fieldAt?_index hf⟩
  · simp [MessageInfo.fieldAt?, MessageInfo.fieldCount]

theorem published_fields_found_letters :
    ∃ shared field, ((create 0 { strictNames := false }).registry.register .letters
        Schema.letters.letter).registry.catalog.message? "l.Letter" = some shared ∧
      field ∈ shared.value.fields ∧ field.name = "ß" ∧
      shared.value.fieldNamed? "SS" = some field := by
  have hletter : (((create 0 { strictNames := false }).registry.register .letters
      Schema.letters.letter).registry.catalog.message? "l.Letter").any (fun shared =>
        shared.value.fields.any fun field =>
          field.name = "ß" ∧ field.exportedName = "SS") = true := by
    decide +kernel
  obtain ⟨shared, hm, hfields⟩ := (Option.any_eq_true _ _).mp hletter
  obtain ⟨field, hf, hnames⟩ := List.any_eq_true.mp hfields
  obtain ⟨hname, hexported⟩ := of_decide_eq_true hnames
  have hr := (Reachable.create 0 { strictNames := false }).register Schema.letters.letter
  obtain ⟨_, hfound, _, _⟩ := (published_fields_found hr hm).1 field hf
  rw [hexported] at hfound
  exact ⟨shared, field, hm, hf, hname, hfound⟩

end Registry
end MessageRegistry
