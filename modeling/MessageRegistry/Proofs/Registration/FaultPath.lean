import MessageRegistry.Proofs.Registration.Halting
import MessageRegistry.Proofs.Schema.Violation

/-!
The path that a fault tells. A walk that halts was resolving one field inside another, and the links
of the fault name these fields. Main statement: the links lead along declared fields from the type
that the walk began with to one that breaks the rule named at their end, and they pass no name
twice.
-/
namespace MessageRegistry

def Schema.faultAlong (S : Schema) (links : List (S.Message × S.Field)) (root : Fault) : Fault :=
  links.foldr (fun link source => .inField (S.messageName link.1) link.2.name source) root

def Schema.linkNames (S : Schema) (links : List (S.Message × S.Field)) : List String :=
  links.map fun link => S.messageName link.1

namespace Schema
variable {S : Schema} {strict : Bool}

/-- Links that start at one type and end at another. Each is a declared field; the next one is a
field of its element. -/
inductive Leads (S : Schema) : S.FieldType → List (S.Message × S.Field) → S.FieldType → Prop
  | here (type : S.FieldType) : Leads S type [] type
  | link {m : S.Message} {field : S.Field} {type target : S.FieldType}
      {links : List (S.Message × S.Field)} (hf : field ∈ (S.message m).fields)
      (he : S.HasElement field type) (rest : Leads S type links target) :
      Leads S (.message m) ((m, field) :: links) target

/-- What a fault without links tells of the type where it was met. The names above are those of the
types whose fields led there. -/
inductive Blames (S : Schema) (catalog : Catalog) (strict : Bool) (above : List String) :
    S.FieldType → Fault → Prop
  | unnamed {m : S.Message} (h : S.messageName m = "") :
      Blames S catalog strict above (.message m) .emptyTypeName
  | mapEntry {m : S.Message} (h : (S.message m).isMapEntry = true) :
      Blames S catalog strict above (.message m) (.malformedMapEntry (S.messageName m))
  | message {m : S.Message} {fault : Fault}
      (unpublished : catalog.message? (S.messageName m) = none)
      (not_above : S.messageName m ∉ above) (h : S.Breaks strict m fault) :
      Blames S catalog strict above (.message m) fault
  | enum {e : S.Enum} (unpublished : catalog.enum? (S.enumName e) = none)
      (h : ¬ S.WellFormedEnum strict e) :
      Blames S catalog strict above (.enum e) (.invalidEnum (S.enumName e))

theorem FieldBreaks.source?_eq_none {owner : String} {field : S.Field} {fault : Fault}
    (h : S.FieldBreaks strict owner field fault) : fault.source? = none := by
  cases h <;> rfl

theorem Breaks.source?_eq_none {m : S.Message} {fault : Fault} (h : S.Breaks strict m fault) :
    fault.source? = none := by
  cases h with
  | field _ h => exact h.source?_eq_none
  | name _ | exportedName _ | number _ => rfl

variable {catalog : Catalog} {above : List String} {type : S.FieldType}

theorem Blames.source?_eq_none {fault : Fault} (h : S.Blames catalog strict above type fault) :
    fault.source? = none := by
  cases h with
  | unnamed _ | mapEntry _ | enum _ _ => rfl
  | message _ _ h => exact h.source?_eq_none

theorem Blames.mono {fewer : List String} {fault : Fault}
    (h : S.Blames catalog strict above type fault) (hsubset : fewer ⊆ above) :
    S.Blames catalog strict fewer type fault := by
  cases h with
  | unnamed h => exact .unnamed h
  | mapEntry h => exact .mapEntry h
  | message hk hn h => exact .message hk (fun hm => hn (hsubset hm)) h
  | enum hk h => exact .enum hk h

end Schema

namespace Registration
variable {S : Schema} {catalog : Catalog} {strict : Bool} {fuel : Nat} {m : S.Message}
variable {draft : Draft} {type target : S.FieldType} {links : List (S.Message × S.Field)}
variable {root : Fault} {halt : Halt}

/-- The links lead from a type to the fault's root, through types that are neither published nor
among the names above, and that have different names. -/
structure FaultPath (S : Schema) (catalog : Catalog) (strict : Bool) (above : List String)
    (type : S.FieldType) (links : List (S.Message × S.Field)) (target : S.FieldType)
    (root : Fault) : Prop where
  leads : S.Leads type links target
  nodup : (S.linkNames links).Nodup
  not_above : ∀ name ∈ S.linkNames links, name ∉ above
  unpublished : ∀ name ∈ S.linkNames links, catalog.message? name = none
  blames : S.Blames catalog strict (S.linkNames links ++ above) target root

theorem Enters.unpublished (h : Enters S catalog m draft) :
    catalog.message? (S.messageName m) = none :=
  (Table.not_contains_iff _ _).mp fun hk => h.not_knows (Or.inl hk)

theorem FaultPath.here {above : List String} (h : S.Blames catalog strict above type root) :
    FaultPath S catalog strict above type [] type root :=
  ⟨.here type, List.nodup_nil, by simp [Schema.linkNames], by simp [Schema.linkNames], h⟩

/-- The rest of the path keeps clear of the type that is entered, as of those above it. -/
theorem FaultPath.link {field : S.Field} (hm : Enters S catalog m draft)
    (hf : field ∈ (S.message m).fields) (he : S.HasElement field type)
    (h : FaultPath S catalog strict (S.messageName m :: draft.inProgress) type links target root) :
    FaultPath S catalog strict draft.inProgress (.message m) ((m, field) :: links) target root := by
  have hfresh : S.messageName m ∉ S.linkNames links :=
    fun hn => h.not_above _ hn (List.mem_cons_self ..)
  constructor
  · exact .link hf he h.leads
  · exact List.nodup_cons.mpr ⟨hfresh, h.nodup⟩
  · refine List.forall_mem_cons.mpr ⟨hm.not_inProgress, fun name hn hp => ?_⟩
    exact h.not_above name hn (List.mem_cons_of_mem _ hp)
  · exact List.forall_mem_cons.mpr ⟨hm.unpublished, h.unpublished⟩
  · exact h.blames.mono List.perm_middle.symm.subset

theorem Halts.faultPath (h : Halts S catalog strict fuel type draft halt) {fault : Fault}
    {trail : List Visit} (hr : halt = .rejected fault trail) :
    ∃ links target root, fault = S.faultAlong links root ∧
      FaultPath S catalog strict draft.inProgress type links target root := by
  induction h generalizing fault with
  | exhausted m draft => cases hr
  | unnamed h draft =>
    cases hr
    exact ⟨[], _, _, rfl, .here (.unnamed h)⟩
  | mapEntry h draft =>
    cases hr
    exact ⟨[], _, _, rfl, .here (.mapEntry h)⟩
  | form h hf =>
    cases hr
    have hbreaks := Schema.Breaks.field h.mem (Schema.form?_eq_error hf)
    exact ⟨[], _, _, rfl, .here (.message h.enters.unpublished h.enters.not_inProgress hbreaks)⟩
  | @element fuel m draft middle field form inner h hf _ ih =>
    cases inner with
    | exhausted => cases hr
    | rejected source trail =>
      cases hr
      obtain ⟨links, target, root, rfl, hpath⟩ := ih rfl
      rw [h.inProgress] at hpath
      exact ⟨(m, field) :: links, target, root, rfl,
        hpath.link h.enters h.mem (Schema.hasElement_of_form? hf)⟩
  | index h hw hi =>
    cases hr
    have hbreaks := Schema.breaks_of_ofFields?_eq_error (walkFields_walked hw).read hi
    exact ⟨[], _, _, rfl, .here (.message h.unpublished h.not_inProgress hbreaks)⟩
  | enum h hd =>
    cases hr
    obtain ⟨hwf, rfl⟩ := Schema.describe?_eq_error hd
    have hk := (Table.not_contains_iff _ _).mp fun hk => h (Or.inl hk)
    exact ⟨[], _, _, rfl, .here (.enum hk hwf)⟩

theorem draftMessage_faultPath {fault : Fault} {trail : List Visit}
    (h : draftMessage S catalog strict m = .error (.rejected fault trail)) :
    ∃ links target root, fault = S.faultAlong links root ∧
      FaultPath S catalog strict [] (.message m) links target root :=
  (halts_of_walk_eq_error h).faultPath rfl

end Registration
end MessageRegistry
