import MessageRegistry.Proofs.Info.FieldLookUp
import MessageRegistry.Proofs.Schema.Description

/-!
Looking up enum values by their short names. A short name is not stored: it is read off the full
name behind the last dot. Main statement: every declared name finds its value, and no other name
finds any, exactly if no declared name has a dot.
-/
namespace MessageRegistry.Schema
variable {S : Schema} {strict : Bool} {e other : S.Enum} {info : EnumInfo} {short : String}

/-- Short names find what the enum declares by them, and nothing else. -/
structure FindsDeclared (S : Schema) (e : S.Enum) (info : EnumInfo) : Prop where
  found : ∀ decl ∈ (S.enum e).values, info.valueNamed? decl.name =
    some ⟨Name.qualify (S.enumName e) decl.name, S.enumName e, decl.number⟩
  missed : ∀ short, (∀ decl ∈ (S.enum e).values, decl.name ≠ short) →
    info.valueNamed? short = none

namespace DescribesEnum

theorem wellFormed (h : S.DescribesEnum e info) (ho : S.DescribesEnum other info)
    (hwf : S.WellFormedEnum strict other) : S.WellFormedEnum strict e := by
  have hname : S.enumName e = S.enumName other := h.name.symm.trans ho.name
  have hvalues : (S.enum e).values = (S.enum other).values := by
    have hinj : Function.Injective fun value : EnumValueDecl =>
        (⟨S.enumName e ++ "." ++ value.name, S.enumName e, value.number⟩ : EnumValueInfo) := by
      rintro ⟨name, number⟩ ⟨name', number'⟩ heq
      simpa [String.append_right_inj] using heq
    apply List.map_injective_iff.mpr hinj
    rw [← h.values, ho.values, hname]
  constructor
  · exact hname ▸ hwf.named
  · exact hvalues ▸ hwf.names
  · exact hvalues ▸ hwf.identifiers

theorem valueNamed?_eq (h : S.DescribesEnum e info) (short : String) :
    info.valueNamed? short =
      ((S.enum e).values.find? fun decl => Name.lastComponent decl.name = short).map
        (·.describe (S.enumName e)) := by
  have hlast : ∀ decl : EnumValueDecl,
      Name.lastComponent (decl.describe (S.enumName e)).name = Name.lastComponent decl.name :=
    fun decl => Name.lastComponent_qualify _ _
  have hvalues : info.values = (S.enum e).values.map (·.describe (S.enumName e)) := h.values
  simp only [EnumInfo.valueNamed?, hvalues, List.find?_map, Function.comp_def, hlast]

theorem valueNumbered?_eq (h : S.DescribesEnum e info) (number : Int32) :
    info.valueNumbered? number =
      ((S.enum e).values.find? fun decl => decl.number = number).map
        (·.describe (S.enumName e)) := by
  have hvalues : info.values = (S.enum e).values.map (·.describe (S.enumName e)) := h.values
  simp only [EnumInfo.valueNumbered?, hvalues, List.find?_map]
  rfl

theorem valueNamed?_of_dot (h : S.DescribesEnum e info) (hdot : '.' ∈ short.toList) :
    info.valueNamed? short = none := by
  rw [h.valueNamed?_eq, Option.map_eq_none_iff, List.find?_eq_none]
  intro decl _ hlast
  rw [← of_decide_eq_true hlast] at hdot
  exact Name.dot_not_mem_lastComponent decl.name hdot

theorem findsDeclared_of_dotless (h : S.DescribesEnum e info) (hwf : S.WellFormedEnum strict e)
    (hdot : ∀ decl ∈ (S.enum e).values, '.' ∉ decl.name.toList) : S.FindsDeclared e info := by
  have hlast : ∀ decl ∈ (S.enum e).values, Name.lastComponent decl.name = decl.name :=
    fun decl hdecl => Name.lastComponent_eq_self (hdot decl hdecl)
  constructor
  · intro decl hdecl
    have hnodup : ((S.enum e).values.map fun decl => Name.lastComponent decl.name).Nodup := by
      rw [List.map_congr_left hlast]
      exact hwf.names
    have hfind := find?_key hnodup hdecl
    rw [hlast decl hdecl] at hfind
    rw [h.valueNamed?_eq, hfind]
    rfl
  · intro short hshort
    rw [h.valueNamed?_eq, Option.map_eq_none_iff, List.find?_eq_none]
    intro decl hdecl hname
    apply hshort decl hdecl
    rw [← hlast decl hdecl, of_decide_eq_true hname]

/-- A value whose name has a dot is not found by that name. -/
theorem findsDeclared_iff (h : S.DescribesEnum e info) (hwf : S.WellFormedEnum strict e) :
    S.FindsDeclared e info ↔ ∀ decl ∈ (S.enum e).values, '.' ∉ decl.name.toList := by
  refine ⟨fun hfinds decl hdecl hdot => ?_, h.findsDeclared_of_dotless hwf⟩
  have hfound := hfinds.found decl hdecl
  rw [h.valueNamed?_of_dot hdot] at hfound
  cases hfound

end DescribesEnum
end MessageRegistry.Schema
