import Mathlib.Data.List.Chain
import Mathlib.Logic.Relation
import MessageRegistry.Proofs.Info.FieldIndex
import MessageRegistry.Proofs.Registration.Induction

/-!
The order in which a walk drafts types. A type is drafted when the types that it refers to have been
seen to, so it stands behind those that were drafted by then; the others are in progress, one inside
the other. Main statement: of the types that a drafted type refers to, each is published, or drafted
before it, or was reported in progress and leads back to it.
-/
namespace MessageRegistry

def MessageInfo.RefersTo (info : MessageInfo) (typeName : String) : Prop :=
  ∃ field ∈ info.fields, field.isMessage = true ∧ field.typeName? = some typeName

theorem MessageInfo.refersTo_iff {info : MessageInfo} {typeName : String} :
    info.RefersTo typeName ↔ ∃ field ∈ info.fields, field.HasElement (.message typeName) := by
  simp only [RefersTo, FieldInfo.hasElement_message_iff]

/-- The types in progress, the innermost first, each referring to the one inside it. -/
def Linked (refers : String → String → Prop) (inProgress : List String) : Prop :=
  inProgress.IsChain fun inner outer => refers outer inner

/-- A type in progress leads to the innermost one. -/
theorem Linked.leads {refers : String → String → Prop} {inner outer : String}
    {inProgress : List String} (h : Linked refers (inner :: inProgress))
    (ho : outer ∈ inProgress) : Relation.TransGen refers outer inner := by
  have hpaths : (inner :: inProgress).IsChain fun inner outer =>
      Relation.TransGen refers outer inner :=
    h.imp fun _ _ hr => .single hr
  have htrans : IsTrans String fun inner outer => Relation.TransGen refers outer inner :=
    ⟨fun _ _ _ hab hbc => hbc.trans hab⟩
  exact List.rel_of_pairwise_cons (List.isChain_iff_pairwise.mp hpaths) ho

namespace Draft
variable {refers : String → String → Prop} {catalog : Catalog} {draft middle final : Draft}
variable {name t u : String} {info : MessageInfo}

def Refers (draft : Draft) (t u : String) : Prop :=
  ∃ info ∈ draft.messages.values, info.name = t ∧ info.RefersTo u

def Pending (draft : Draft) : Prop :=
  ∀ name ∈ draft.inProgress, draft.messages.contains name = false

/-- A later draft, between the same types in progress: what was drafted and visited comes first. -/
structure Continues (draft final : Draft) : Prop where
  inProgress : final.inProgress = draft.inProgress
  pending : final.Pending
  messages : draft.messages.entries <+: final.messages.entries
  trail : draft.trail <:+ final.trail

/-- The type is published, or drafted, or was met while in progress and still is. -/
def Met (catalog : Catalog) (draft : Draft) (name : String) : Prop :=
  catalog.messages.contains name = true ∨ draft.messages.contains name = true ∨
    name ∈ draft.inProgress ∧ .revisit name ∈ draft.trail

/-- What a drafted type refers to is published, or drafted before it, or was met while in progress
and leads to it; and a type met while in progress leads to itself. -/
structure Ordered (refers : String → String → Prop) (catalog : Catalog) (draft : Draft) :
    Prop where
  placed : ∀ t u, draft.Refers t u → catalog.messages.contains u = true ∨
    [u, t].Sublist draft.messages.keys ∨
      .revisit u ∈ draft.trail ∧ Relation.ReflTransGen refers u t
  circular : ∀ u, .revisit u ∈ draft.trail → Relation.TransGen refers u u

namespace Continues

theorem refl (h : draft.Pending) : Continues draft draft :=
  ⟨rfl, h, List.prefix_rfl, List.suffix_rfl⟩

theorem trans (h : Continues draft middle) (g : Continues middle final) :
    Continues draft final :=
  ⟨g.inProgress.trans h.inProgress, g.pending, h.messages.trans g.messages,
    h.trail.trans g.trail⟩

theorem keys (h : Continues draft final) : draft.messages.keys <+: final.messages.keys :=
  h.messages.map Prod.fst

theorem contains (h : Continues draft final) (hn : draft.messages.contains name = true) :
    final.messages.contains name = true :=
  (Table.contains_iff _ _).mpr (h.keys.subset ((Table.contains_iff _ _).mp hn))

theorem refersTo (h : Continues draft final) (hr : draft.Refers t u) : final.Refers t u := by
  obtain ⟨info, hi, hn, hu⟩ := hr
  exact ⟨info, (h.messages.map Prod.snd).subset hi, hn, hu⟩

theorem met (h : Continues draft final) (hn : draft.Met catalog name) :
    final.Met catalog name := by
  rcases hn with hp | hd | ⟨hp, hv⟩
  · exact Or.inl hp
  · exact Or.inr (Or.inl (h.contains hd))
  · exact Or.inr (Or.inr ⟨by rwa [h.inProgress], h.trail.subset hv⟩)

theorem revisit (h : draft.Pending) (name : String) : Continues draft (draft.revisit name) :=
  ⟨rfl, h, List.prefix_rfl, List.suffix_cons _ _⟩

theorem stageEnum (h : draft.Pending) (info : EnumInfo) : Continues draft (draft.stageEnum info) :=
  ⟨rfl, h, List.prefix_rfl, List.suffix_rfl⟩

end Continues

theorem Pending.enter (h : draft.Pending) (hn : draft.messages.contains name = false) :
    (draft.enter name).Pending :=
  List.forall_mem_cons.mpr ⟨hn, h⟩

section Describe
variable (h : Continues (draft.enter name) middle) (hi : info.name = name)
include h hi

theorem entries_describe :
    ((middle.leave name).stageMessage info).messages.entries =
      middle.messages.entries ++ [(name, info)] := by
  have hin : name ∈ middle.inProgress := by
    rw [h.inProgress]
    exact List.mem_cons_self
  subst hi
  exact Table.entries_insert_of_not_contains (h.pending info.name hin) info

theorem keys_describe :
    ((middle.leave name).stageMessage info).messages.keys = middle.messages.keys ++ [name] := by
  rw [Table.keys, entries_describe h hi, List.map_append]
  rfl

theorem refers_describe :
    ((middle.leave name).stageMessage info).Refers t u ↔
      middle.Refers t u ∨ name = t ∧ info.RefersTo u := by
  simp only [Refers, Table.values, entries_describe h hi, List.map_append, List.mem_append,
    List.map_cons, List.map_nil, List.mem_singleton, or_and_right, exists_or, exists_eq_left, hi]

theorem Continues.describe (hp : name ∉ draft.inProgress) :
    Continues draft ((middle.leave name).stageMessage info) := by
  have hin : middle.inProgress = name :: draft.inProgress := h.inProgress
  refine ⟨congrArg List.tail hin, fun other ho => ?_, ?_, ?_⟩
  · have hother : other ∈ draft.inProgress := by
      have htail : ((middle.leave name).stageMessage info).inProgress = draft.inProgress :=
        congrArg List.tail hin
      rwa [htail] at ho
    have hne : info.name ≠ other := by
      rintro rfl
      exact hp (hi ▸ hother)
    have hpending := h.pending other (by rw [hin]; exact List.mem_cons_of_mem _ hother)
    simp [Draft.stageMessage, Draft.leave, Table.contains_insert, hne, hpending]
  · rw [entries_describe h hi]
    exact h.messages.trans (List.prefix_append _ _)
  · exact (List.suffix_cons _ _).trans (h.trail.trans (List.suffix_cons _ _))

end Describe

namespace Ordered

theorem empty : Ordered refers catalog .empty := by
  constructor
  · rintro t u ⟨info, hi, _⟩
    simp [Draft.empty, Table.empty, Table.values] at hi
  · intro u hu
    simp [Draft.empty] at hu

theorem enter (h : draft.Ordered refers catalog) (name : String) :
    (draft.enter name).Ordered refers catalog := by
  constructor
  · intro t u hr
    exact (h.placed t u hr).imp_right (Or.imp_right (And.imp_left (List.mem_cons_of_mem _)))
  · intro u hu
    exact h.circular u (by simpa [Draft.enter] using hu)

theorem stageEnum (h : draft.Ordered refers catalog) (info : EnumInfo) :
    (draft.stageEnum info).Ordered refers catalog :=
  ⟨h.placed, h.circular⟩

/-- A type that is met inside itself lies on a cycle. -/
theorem revisit (h : draft.Ordered refers catalog) (hp : name ∈ draft.inProgress)
    (hl : Linked refers (name :: draft.inProgress)) :
    (draft.revisit name).Ordered refers catalog := by
  constructor
  · intro t u hr
    exact (h.placed t u hr).imp_right (Or.imp_right (And.imp_left (List.mem_cons_of_mem _)))
  · intro u hu
    rcases List.mem_cons.mp hu with heq | hu
    · cases heq
      exact hl.leads hp
    · exact h.circular u hu

/-- What the described type refers to has been met, and what is still in progress leads to it. -/
theorem describe (h : middle.Ordered refers catalog)
    (hc : Continues (draft.enter name) middle) (hi : info.name = name)
    (hmet : ∀ u, info.RefersTo u → middle.Met catalog u)
    (hl : Linked refers (name :: draft.inProgress)) :
    ((middle.leave name).stageMessage info).Ordered refers catalog := by
  have hin : middle.inProgress = name :: draft.inProgress := hc.inProgress
  constructor
  · intro t u hr
    rw [keys_describe hc hi]
    rcases (refers_describe hc hi).mp hr with hr | ⟨rfl, hu⟩
    · rcases h.placed t u hr with hk | hs | ⟨hv, hpath⟩
      · exact Or.inl hk
      · exact Or.inr (Or.inl (hs.trans (List.sublist_append_left _ _)))
      · exact Or.inr (Or.inr ⟨List.mem_cons_of_mem _ hv, hpath⟩)
    · rcases hmet u hu with hk | hd | ⟨hp, hv⟩
      · exact Or.inl hk
      · have hkey := List.singleton_sublist.mpr ((Table.contains_iff _ _).mp hd)
        exact Or.inr (Or.inl (hkey.append (List.Sublist.refl [name])))
      · refine Or.inr (Or.inr ⟨List.mem_cons_of_mem _ hv, ?_⟩)
        rw [hin] at hp
        rcases List.mem_cons.mp hp with rfl | hp
        · exact .refl
        · exact (hl.leads hp).to_reflTransGen
  · intro u hu
    exact h.circular u (by simpa [Draft.stageMessage, Draft.leave] using hu)

end Ordered
end Draft

namespace Registration
variable {S : Schema} {catalog : Catalog} {strict : Bool} {fuel : Nat} {m : S.Message}
variable {draft final : Draft} {refers : String → String → Prop}

/-- What a walk over a message type does to the order of a draft, where `refers` holds whenever a
drafted description refers to a type. -/
structure Arranged (S : Schema) (catalog : Catalog) (refers : String → String → Prop)
    (m : S.Message) (draft final : Draft) : Prop where
  continues : draft.Continues final
  met : final.Met catalog (S.messageName m)
  last : S.messageName m ∉ draft.inProgress → ¬ draft.Knows catalog (S.messageName m) →
    final.messages.keys.getLast? = some (S.messageName m)
  ordered : Linked refers (S.messageName m :: draft.inProgress) →
    (∀ t u, final.Refers t u → refers t u) → draft.Ordered refers catalog →
      final.Ordered refers catalog

/-- What a walk over the last fields of the message type `owner` does to the order of a draft. -/
structure ArrangedFields (catalog : Catalog) (refers : String → String → Prop) (owner : String)
    (draft : Draft) (infos : List FieldInfo) (final : Draft) : Prop where
  continues : draft.Continues final
  met : ∀ info ∈ infos, ∀ u, info.HasElement (.message u) → final.Met catalog u
  ordered : ∀ outer, draft.inProgress = owner :: outer → Linked refers (owner :: outer) →
    (∀ info ∈ infos, ∀ u, info.HasElement (.message u) → refers owner u) →
    (∀ t u, final.Refers t u → refers t u) → draft.Ordered refers catalog →
      final.Ordered refers catalog

theorem Arranged.revisit (hp : S.messageName m ∈ draft.inProgress) (h : draft.Pending) :
    Arranged S catalog refers m draft (draft.revisit (S.messageName m)) :=
  ⟨.revisit h _, Or.inr (Or.inr ⟨hp, List.mem_cons_self⟩), fun hn => absurd hp hn,
    fun hl _ ho => ho.revisit hp hl⟩

theorem Arranged.known (hk : draft.Knows catalog (S.messageName m)) (h : draft.Pending) :
    Arranged S catalog refers m draft draft :=
  ⟨.refl h, hk.imp_right Or.inl, fun _ hn => absurd hk hn, fun _ _ ho => ho⟩

theorem Arranged.describe {middle : Draft} {infos : List FieldInfo} {info : MessageInfo}
    (hp : S.messageName m ∉ draft.inProgress)
    (h : ArrangedFields catalog refers (S.messageName m) (draft.enter (S.messageName m)) infos
      middle)
    (hi : MessageInfo.ofFields? (S.messageName m) infos = .ok info) :
    Arranged S catalog refers m draft ((middle.leave (S.messageName m)).stageMessage info) := by
  have hname := MessageInfo.name_of_ofFields? hi
  have hfields := MessageInfo.fields_of_ofFields? hi
  have hkeys := Draft.keys_describe h.continues hname
  constructor
  · exact Draft.Continues.describe h.continues hname hp
  · refine Or.inr (Or.inl ((Table.contains_iff _ _).mpr ?_))
    simp [hkeys]
  · intro _ _
    rw [hkeys, List.getLast?_concat]
  · intro hl hrefers ho
    have hmiddle : middle.Ordered refers catalog := by
      apply h.ordered _ rfl hl _ _ (ho.enter _)
      · intro field hf u hu
        apply hrefers
        rw [Draft.refers_describe h.continues hname]
        exact Or.inr ⟨rfl, MessageInfo.refersTo_iff.mpr ⟨field, hfields ▸ hf, hu⟩⟩
      · intro t u hr
        exact hrefers t u ((Draft.refers_describe h.continues hname).mpr (Or.inl hr))
    apply hmiddle.describe h.continues hname _ hl
    intro u hu
    obtain ⟨field, hf, helement⟩ := MessageInfo.refersTo_iff.mp hu
    exact h.met field (hfields ▸ hf) u helement

section Ensured
variable {type : S.FieldType}
  (h : Ensured S catalog strict
    (fun t draft final => draft.Pending → Arranged S catalog refers t draft final) type draft final)
  (hd : draft.Pending)
include h hd

theorem Ensured.continues : draft.Continues final := by
  cases h with
  | scalar kind => exact .refl hd
  | message h => exact (h hd).continues
  | knownEnum h => exact .refl hd
  | newEnum hn h => exact .stageEnum hd _

theorem Ensured.met {u : String} (hu : S.elementOf type = .message u) : final.Met catalog u := by
  cases h with
  | message h =>
    obtain rfl := Element.message.inj hu
    exact (h hd).met
  | scalar _ | knownEnum _ | newEnum _ _ => cases hu

theorem Ensured.ordered {owner : String} {outer : List String}
    (hin : draft.inProgress = owner :: outer) (hl : Linked refers (owner :: outer))
    (hu : ∀ u, S.elementOf type = .message u → refers owner u)
    (hr : ∀ t u, final.Refers t u → refers t u) (ho : draft.Ordered refers catalog) :
    final.Ordered refers catalog := by
  cases h with
  | scalar kind => exact ho
  | message h =>
    apply (h hd).ordered _ hr ho
    rw [hin]
    exact List.isChain_cons_cons.mpr ⟨hu _ rfl, hl⟩
  | knownEnum h => exact ho
  | newEnum hn h => exact ho.stageEnum _

end Ensured

theorem ArrangedFields.cons {owner : String} {position : Nat} {field : S.Field}
    {form : Form S.Message S.Enum} {middle : Draft} {infos : List FieldInfo}
    (he : Ensured S catalog strict
      (fun t draft final => draft.Pending → Arranged S catalog refers t draft final)
      form.element draft middle)
    (h : middle.Pending → ArrangedFields catalog refers owner middle infos final)
    (hd : draft.Pending) :
    ArrangedFields catalog refers owner draft (S.describeField position field form :: infos)
      final := by
  have hmiddle := he.continues hd
  have hrest := h hmiddle.pending
  constructor
  · exact hmiddle.trans hrest.continues
  · exact List.forall_mem_cons.mpr
      ⟨fun u hu => hrest.continues.met (he.met hd (Schema.hasElement_describeField_iff.mp hu)),
        hrest.met⟩
  · intro outer hin hl hrefers hr ho
    obtain ⟨hhead, htail⟩ := List.forall_mem_cons.mp hrefers
    have hheld : ∀ u, S.elementOf form.element = .message u → refers owner u :=
      fun u hu => hhead u (Schema.hasElement_describeField_iff.mpr hu)
    have hbefore : ∀ t u, middle.Refers t u → refers t u :=
      fun t u hm => hr t u (hrest.continues.refersTo hm)
    exact hrest.ordered outer (hmiddle.inProgress.trans hin) hl htail hr
      (he.ordered hd hin hl hheld hbefore ho)

theorem walk_arranged (h : walk S catalog strict fuel m draft = .ok final)
    (hd : draft.Pending) : Arranged S catalog refers m draft final := by
  revert hd
  refine walk_induction
    (P := fun m draft final => draft.Pending → Arranged S catalog refers m draft final)
    (F := fun owner _ _ draft infos final =>
      draft.Pending → ArrangedFields catalog refers owner draft infos final) ?_ ?_ ?_ ?_ ?_ h
  · intro m draft _ hp hd
    exact .revisit hp hd
  · intro m draft _ _ hk hd
    exact .known hk hd
  · intro m draft infos middle info _ hp hk hw hi hd
    have hnew : draft.messages.contains (S.messageName m) = false :=
      Bool.eq_false_iff.mpr fun hc => hk (Or.inr hc)
    exact .describe hp (hw (hd.enter hnew)) hi
  · intro _ _ draft hd
    exact ⟨.refl hd, by simp, fun _ _ _ _ _ ho => ho⟩
  · intro owner position field fields form draft middle infos final _ he hw hd
    exact .cons he hw hd

/-- The walk over a message type that is not published drafts it last, behind all it refers to but
for what leads back, and reports such types and no others. -/
theorem draftMessage_ordered (h : draftMessage S catalog strict m = .ok draft)
    (hk : ¬ catalog.messages.contains (S.messageName m) = true) :
    draft.messages.keys.getLast? = some (S.messageName m) ∧
      draft.Ordered draft.Refers catalog := by
  have hpending : Draft.empty.Pending := by simp [Draft.Pending, Draft.empty]
  have harranged : Arranged S catalog draft.Refers m .empty draft := walk_arranged h hpending
  constructor
  · apply harranged.last
    · simp [Draft.empty]
    · intro hn
      rcases hn with hc | hd
      · exact hk hc
      · cases hd
  · exact harranged.ordered (List.isChain_singleton _) (fun _ _ hr => hr) .empty

end Registration
end MessageRegistry
