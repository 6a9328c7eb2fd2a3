import MessageRegistry.Proofs.Registry.Closure
import MessageRegistry.Proofs.Registry.EnumValue
import MessageRegistry.Proofs.Registry.Identity
import MessageRegistry.Proofs.Registry.LeadingDot

/-!
Looking up the names that a registry hands out. A name is normalized when it is stored, and once
more when it is looked up. Main statement: a stored name finds what it stands for exactly if it does
not begin with a dot; written with one dot more, it always does.
-/
namespace MessageRegistry

namespace Name
variable {name : String}

theorem normalize_append_dot (name : String) : normalize ("." ++ name) = name := by
  rw [← String.toList_inj, toList_normalize, String.toList_append]
  rfl

theorem normalize_eq_self_iff : normalize name = name ↔ Dotless name := by
  rw [← String.toList_inj, toList_normalize]
  constructor
  · intro h hdot
    obtain ⟨cs, hcs⟩ := List.head?_eq_some_iff.mp hdot
    rw [hcs] at h
    exact List.cons_ne_self '.' cs h.symm
  · exact dropDot_of_head?

end Name

/-- What is stored under a name is the answer to the name with a dot in front, and to the name
itself unless that begins with a dot. -/
def Answers {α : Type} (ask : String → Except Failure α) (name : String) (stored : α) : Prop :=
  ask ("." ++ name) = .ok stored ∧ (ask name = .ok stored ↔ Name.Dotless name)

/-- It is enough that questions are normalized and that nothing is stored under two names. -/
theorem answers_of_stored {α : Type} {ask : String → Except Failure α} {find : String → Option α}
    {name : String} {stored : α}
    (hask : ∀ query, ask query = .ok stored ↔ find (Name.normalize query) = some stored)
    (hstored : find name = some stored) (hname : ∀ other, find other = some stored → other = name) :
    Answers ask name stored := by
  constructor
  · rw [hask, Name.normalize_append_dot, hstored]
  · rw [hask, ← Name.normalize_eq_self_iff]
    constructor
    · exact hname (Name.normalize name)
    · intro hn
      rw [hn, hstored]

namespace Catalog.Sound
variable {S : Schema} {strict : Bool} {catalog : Catalog} {name : String}

theorem name_eq (h : Sound S strict catalog) {shared : Shared MessageInfo}
    (hm : catalog.message? name = some shared) : shared.value.name = name := by
  obtain ⟨m, hn, hd, _⟩ := h.message name shared hm
  exact hd.name.trans hn

theorem enum_name_eq (h : Sound S strict catalog) {shared : Shared EnumInfo}
    (he : catalog.enum? name = some shared) : shared.value.name = name := by
  obtain ⟨e, hn, hd, _⟩ := h.enum name shared he
  exact hd.name.trans hn

theorem eq_of_enumValue_name_eq (h : Sound S strict catalog) {shared : Shared EnumInfo}
    (he : catalog.enum? name = some shared) {value other : EnumValueInfo}
    (hv : value ∈ shared.value.values) (ho : other ∈ shared.value.values)
    (hname : value.name = other.name) : value = other := by
  obtain ⟨e, _, hd, hwf⟩ := h.enum name shared he
  rw [hd.values] at hv ho
  obtain ⟨a, ha, rfl⟩ := List.mem_map.mp hv
  obtain ⟨b, hb, rfl⟩ := List.mem_map.mp ho
  have hshort : a.name = b.name := String.append_right_inj _ |>.mp hname
  rw [List.inj_on_of_nodup_map hwf.names ha hb hshort]

end Catalog.Sound

namespace Registry
variable {S : Schema} {registry : Registry} {name : String}

theorem mem_typeNames_iff : name ∈ registry.typeNames ↔
    ∃ shared, registry.catalog.message? name = some shared := by
  rw [typeNames, Name.sort, List.mem_mergeSort, ← Table.contains_iff]
  exact Option.isSome_iff_exists

theorem describeEnum_eq_ok_iff {query : String} {info : Shared EnumInfo} :
    registry.describeEnum query = .ok info ↔
      registry.catalog.enum? (Name.normalize query) = some info := by
  unfold describeEnum
  cases registry.catalog.enum? (Name.normalize query) <;> simp

theorem Reachable.enumValue?_of_mem (hr : Reachable S registry)
    (hstrict : registry.config.strictNames = true) {shared : Shared EnumInfo}
    (he : registry.catalog.enum? name = some shared) {value : EnumValueInfo}
    (hv : value ∈ shared.value.values) : registry.catalog.enumValue? value.name = some value := by
  have hs := hr.sound
  rw [hstrict] at hs
  obtain ⟨latest, ⟨other, sibling, _, ho, hl⟩, hname, hanswer⟩ :=
    hr.succeeds.gained value ⟨name, shared, rfl, he, hv⟩
  obtain rfl := hs.enumName_eq he ho hv hl hname.symm
  obtain rfl := Option.some.inj (he.symm.trans ho)
  rw [hanswer, hs.eq_of_enumValue_name_eq he hl hv hname]

section Answers

theorem answers_describe (hs : registry.catalog.Sound S registry.config.strictNames)
    {shared : Shared MessageInfo} (hm : registry.catalog.message? name = some shared) :
    Answers (fun query => (registry.describe query).answer) name shared := by
  apply answers_of_stored (fun _ => describe_eq_ok_iff) hm
  intro other ho
  rw [← hs.name_eq ho, hs.name_eq hm]

theorem answers_describeEnum (hs : registry.catalog.Sound S registry.config.strictNames)
    {shared : Shared EnumInfo} (he : registry.catalog.enum? name = some shared) :
    Answers registry.describeEnum name shared := by
  apply answers_of_stored (fun _ => describeEnum_eq_ok_iff) he
  intro other ho
  rw [← hs.enum_name_eq ho, hs.enum_name_eq he]

theorem answers_describeEnumValue (hr : Reachable S registry)
    (hstrict : registry.config.strictNames = true) {shared : Shared EnumInfo}
    (he : registry.catalog.enum? name = some shared) {value : EnumValueInfo}
    (hv : value ∈ shared.value.values) :
    Answers registry.describeEnumValue value.name value := by
  apply answers_of_stored (fun _ => describeEnumValue_eq_ok_iff)
    (hr.enumValue?_of_mem hstrict he hv)
  intro other ho
  exact (hr.enumValue? ho).1.symm

end Answers

/-- Every name that a registry hands out stands for something of that name: the names of its types,
the types and enums that fields refer to, its enums and, where names are strict, their values. With
a dot in front, a name finds what it stands for; as it was handed out, it does so exactly if it does
not begin with a dot. -/
theorem handed_out_names_answer (hr : Reachable S registry) :
    (∀ name ∈ registry.typeNames, ∃ shared, shared.value.name = name ∧
      Answers (fun query => (registry.describe query).answer) name shared) ∧
    (∀ name shared, registry.catalog.message? name = some shared → ∀ field ∈ shared.value.fields,
      (field.isMessage = true → ∃ typeName target, field.typeName? = some typeName ∧
        registry.catalog.message? typeName = some target ∧ target.value.name = typeName ∧
        Answers (fun query => (registry.describe query).answer) typeName target) ∧
      (field.isEnum = true → ∃ enumName target, field.typeName? = some enumName ∧
        registry.catalog.enum? enumName = some target ∧ target.value.name = enumName ∧
        Answers registry.describeEnum enumName target)) ∧
    ∀ name shared, registry.catalog.enum? name = some shared →
      shared.value.name = name ∧ Answers registry.describeEnum name shared ∧
      (registry.config.strictNames = true → ∀ value ∈ shared.value.values,
        Answers registry.describeEnumValue value.name value) := by
  have hs := hr.sound
  refine ⟨?_, ?_, ?_⟩
  · intro name hn
    obtain ⟨shared, hm⟩ := mem_typeNames_iff.mp hn
    exact ⟨shared, hs.name_eq hm, answers_describe hs hm⟩
  · intro name shared hm field hf
    obtain ⟨element, he, hcovers⟩ := hs.closed name shared hm field hf
    constructor
    · intro hmessage
      obtain ⟨typeName, hk, htype⟩ := hcovers.mem_messages he hmessage
      obtain ⟨target, ht⟩ := Option.isSome_iff_exists.mp ((Table.contains_iff _ _).mpr hk)
      exact ⟨typeName, target, htype, ht, hs.name_eq ht, answers_describe hs ht⟩
    · intro henum
      obtain ⟨enumName, hk, htype⟩ := hcovers.mem_enums he henum
      obtain ⟨target, ht⟩ := Option.isSome_iff_exists.mp ((Table.contains_iff _ _).mpr hk)
      exact ⟨enumName, target, htype, ht, hs.enum_name_eq ht, answers_describeEnum hs ht⟩
  · intro name shared he
    exact ⟨hs.enum_name_eq he, answers_describeEnum hs he,
      fun hstrict value hv => answers_describeEnumValue hr hstrict he hv⟩

end Registry

/-- A node and a mode declared with two leading dots each, and another node with one dot less. -/
def Schema.dotted : Schema where
  messageCount := 2
  enumCount := 1
  messages := #v[
    ⟨"..d.Node", [.message "next" 1 (.declared ⟨0, by decide⟩),
      .enum "mode" 2 (.declared ⟨0, by decide⟩)], false⟩,
    ⟨".d.Node", [.message "previous" 1 (.declared ⟨0, by decide⟩)], false⟩]
  enums := #v[⟨"..d.Mode", [⟨"ON", 1⟩]⟩]

namespace Schema.dotted

def node : dotted.Message := .declared ⟨0, by decide⟩

def other : dotted.Message := .declared ⟨1, by decide⟩

end Schema.dotted

namespace Registry

/-- A field of the dotted node hands out a name that begins with a dot. With a dot more it finds the
node, and as it is it does not. -/
theorem handed_out_names_answer_dotted :
    ∃ field target, field.typeName? = some ".d.Node" ∧
      (((create 0 {}).registry.register .dotted Schema.dotted.node).registry.describe
        "..d.Node").answer = .ok target ∧
      field ∈ target.value.fields ∧
      (((create 0 {}).registry.register .dotted Schema.dotted.node).registry.describe
        ".d.Node").answer ≠ .ok target := by
  have hnode : (((create 0 {}).registry.register .dotted
      Schema.dotted.node).registry.catalog.message? ".d.Node").any (fun shared =>
        shared.value.fields.any fun field =>
          field.isMessage && field.typeName? = some ".d.Node") = true := by
    decide +kernel
  obtain ⟨shared, hm, hfields⟩ := (Option.any_eq_true _ _).mp hnode
  obtain ⟨field, hf, hfield⟩ := List.any_eq_true.mp hfields
  obtain ⟨hmessage, htype⟩ := Bool.and_eq_true_iff.mp hfield
  have hr := (Reachable.create 0 {}).register Schema.dotted.node
  obtain ⟨typeName, target, hname, ht, _, hdot, hplain⟩ :=
    ((handed_out_names_answer hr).2.1 _ shared hm field hf).1 hmessage
  have htypeName := of_decide_eq_true htype
  obtain rfl := Option.some.inj (hname.symm.trans htypeName)
  obtain rfl := Option.some.inj (hm.symm.trans ht)
  exact ⟨field, shared, hname, hdot, hf, fun h => absurd (hplain.mp h) (by decide +kernel)⟩

/-- A type is listed under a name that finds nothing, or another type once that is registered. -/
theorem describe_dotted :
    ".d.Node" ∈ ((create 0 {}).registry.register .dotted Schema.dotted.node).registry.typeNames ∧
    (((create 0 {}).registry.register .dotted Schema.dotted.node).registry.describe
      ".d.Node").answer = .error (.notFound "d.Node") ∧
    ((((create 0 {}).registry.register .dotted Schema.dotted.node).registry.register .dotted
      Schema.dotted.other).registry.describe ".d.Node").answer.map (·.value.name) =
        .ok "d.Node" := by
  rw [mem_typeNames_iff, ← Option.isSome_iff_exists]
  decide +kernel

end Registry
end MessageRegistry
