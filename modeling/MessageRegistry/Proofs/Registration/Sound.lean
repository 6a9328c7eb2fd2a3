import MessageRegistry.Proofs.Registration.Induction
import MessageRegistry.Proofs.Schema.Description

/-!
What holds of a draft at every moment of a walk. A draft describes declared, well-formed types, and
whatever its descriptions refer to is in progress, drafted or published. Main statements: a walk
keeps this, forgets nothing, and adds nothing but what its message type reaches.
-/
namespace MessageRegistry

namespace Draft
variable {S : Schema} {catalog : Catalog} {strict : Bool} {draft middle final : Draft}
variable {name typeName : String} {info : MessageInfo} {element : Element}

/-- The type of an element is described, or will be once the types in progress are. -/
def Covers (catalog : Catalog) (draft : Draft) : Element → Prop
  | .scalar _ => True
  | .message typeName => typeName ∈ draft.inProgress ∨ draft.Knows catalog typeName
  | .enum typeName => draft.KnowsEnum catalog typeName

structure Sound (S : Schema) (catalog : Catalog) (strict : Bool) (draft : Draft) : Prop where
  keyed : ∀ entry ∈ draft.messages.entries, entry.1 = entry.2.name
  enumKeyed : ∀ entry ∈ draft.enums.entries, entry.1 = entry.2.name
  message : ∀ info ∈ draft.messages.values,
    ∃ m, S.Describes m info ∧ S.WellFormedMessage strict m
  enum : ∀ info ∈ draft.enums.values, ∃ e, S.DescribesEnum e info ∧ S.WellFormedEnum strict e
  closed : ∀ info ∈ draft.messages.values, ∀ field ∈ info.fields,
    ∃ element, field.HasElement element ∧ draft.Covers catalog element

/-- What a walk does to a draft, whatever it walks over: it ends among the types it began among, and
knows what it knew. -/
structure Extends (catalog : Catalog) (draft final : Draft) : Prop where
  inProgress : final.inProgress = draft.inProgress
  knows : ∀ name, draft.Knows catalog name → final.Knows catalog name
  knowsEnum : ∀ name, draft.KnowsEnum catalog name → final.KnowsEnum catalog name

theorem knows_empty : empty.Knows catalog name ↔ catalog.messages.contains name = true := by
  simp [Knows, empty, Table.contains]

theorem knowsEnum_empty : empty.KnowsEnum catalog name ↔ catalog.enums.contains name = true := by
  simp [KnowsEnum, empty, Table.contains]

theorem knows_stageMessage :
    (draft.stageMessage info).Knows catalog typeName ↔
      draft.Knows catalog typeName ∨ info.name = typeName := by
  simp only [Knows, stageMessage, Table.contains_insert, Bool.or_eq_true, decide_eq_true_eq]
  exact ⟨fun h => by rcases h with h | h | h <;> simp [h],
    fun h => by rcases h with (h | h) | h <;> simp [h]⟩

theorem knowsEnum_stageEnum {enum : EnumInfo} :
    (draft.stageEnum enum).KnowsEnum catalog typeName ↔
      draft.KnowsEnum catalog typeName ∨ enum.name = typeName := by
  simp only [KnowsEnum, stageEnum, Table.contains_insert, Bool.or_eq_true, decide_eq_true_eq]
  exact ⟨fun h => by rcases h with h | h | h <;> simp [h],
    fun h => by rcases h with (h | h) | h <;> simp [h]⟩

namespace Extends

theorem refl (draft : Draft) : Extends catalog draft draft := ⟨rfl, fun _ h => h, fun _ h => h⟩

theorem trans (h : Extends catalog draft middle) (g : Extends catalog middle final) :
    Extends catalog draft final :=
  ⟨g.inProgress.trans h.inProgress, fun name hk => g.knows name (h.knows name hk),
    fun name hk => g.knowsEnum name (h.knowsEnum name hk)⟩

theorem covers (h : Extends catalog draft final) (hc : draft.Covers catalog element) :
    final.Covers catalog element := by
  cases element with
  | scalar kind => trivial
  | message typeName =>
    rcases hc with hp | hk
    · exact Or.inl (by rwa [h.inProgress])
    · exact Or.inr (h.knows typeName hk)
  | enum typeName => exact h.knowsEnum typeName hc

theorem revisit (draft : Draft) (name : String) : Extends catalog draft (draft.revisit name) :=
  ⟨rfl, fun _ h => h, fun _ h => h⟩

theorem stageEnum (draft : Draft) (info : EnumInfo) :
    Extends catalog draft (draft.stageEnum info) :=
  ⟨rfl, fun _ h => h, fun _ h => knowsEnum_stageEnum.mpr (Or.inl h)⟩

/-- From entering a message type to staging it. -/
theorem describe (h : Extends catalog (draft.enter name) middle) (info : MessageInfo) :
    Extends catalog draft ((middle.leave name).stageMessage info) :=
  ⟨by simp [Draft.stageMessage, Draft.leave, h.inProgress, Draft.enter],
    fun other hk => knows_stageMessage.mpr (Or.inl (h.knows other hk)), h.knowsEnum⟩

end Extends

theorem Covers.enter (hc : draft.Covers catalog element) (name : String) :
    (draft.enter name).Covers catalog element := by
  cases element with
  | scalar kind => trivial
  | message typeName => exact hc.imp_left (List.mem_cons_of_mem name)
  | enum typeName => exact hc

/-- A type that is staged is no longer in progress, and is known instead. -/
theorem Covers.stageMessage (hp : middle.inProgress = name :: draft.inProgress)
    (hi : info.name = name) (hc : middle.Covers catalog element) :
    ((middle.leave name).stageMessage info).Covers catalog element := by
  cases element with
  | scalar kind => trivial
  | message typeName =>
    rcases hc with hm | hk
    · rw [hp, List.mem_cons] at hm
      rcases hm with rfl | hm
      · exact Or.inr (knows_stageMessage.mpr (Or.inr hi))
      · exact Or.inl (by simpa [Draft.stageMessage, Draft.leave, hp] using hm)
    · exact Or.inr (knows_stageMessage.mpr (Or.inl hk))
  | enum typeName => exact hc

namespace Sound

theorem empty : Sound S catalog strict .empty := by
  constructor <;> simp [Draft.empty, Table.empty, Table.values]

theorem revisit (h : Sound S catalog strict draft) (name : String) :
    Sound S catalog strict (draft.revisit name) :=
  ⟨h.keyed, h.enumKeyed, h.message, h.enum, h.closed⟩

theorem enter (h : Sound S catalog strict draft) (name : String) :
    Sound S catalog strict (draft.enter name) := by
  refine ⟨h.keyed, h.enumKeyed, h.message, h.enum, fun info hi field hf => ?_⟩
  obtain ⟨element, he, hc⟩ := h.closed info hi field hf
  exact ⟨element, he, hc.enter name⟩

theorem stageEnum (h : Sound S catalog strict draft) {e : S.Enum} {info : EnumInfo}
    (hd : S.DescribesEnum e info) (hwf : S.WellFormedEnum strict e) :
    Sound S catalog strict (draft.stageEnum info) := by
  refine ⟨h.keyed, fun entry he => ?_, h.message, fun other ho => ?_, fun other ho field hf => ?_⟩
  · rcases Table.mem_entries_insert he with rfl | he
    · rfl
    · exact h.enumKeyed entry he
  · rcases Table.mem_values_insert ho with rfl | ho
    · exact ⟨e, hd, hwf⟩
    · exact h.enum other ho
  · obtain ⟨element, helement, hc⟩ := h.closed other ho field hf
    exact ⟨element, helement, (Extends.stageEnum draft info).covers hc⟩

theorem stageMessage (h : Sound S catalog strict middle) {m : S.Message}
    (hp : middle.inProgress = name :: draft.inProgress) (hi : info.name = name)
    (hd : S.Describes m info) (hwf : S.WellFormedMessage strict m)
    (hc : ∀ field ∈ info.fields, ∃ element, field.HasElement element ∧
      middle.Covers catalog element) :
    Sound S catalog strict ((middle.leave name).stageMessage info) := by
  refine ⟨fun entry he => ?_, h.enumKeyed, fun other ho => ?_, h.enum, fun other ho field hf => ?_⟩
  · rcases Table.mem_entries_insert he with rfl | he
    · rfl
    · exact h.keyed entry he
  · rcases Table.mem_values_insert ho with rfl | ho
    · exact ⟨m, hd, hwf⟩
    · exact h.message other ho
  · have hcovered : ∃ element, field.HasElement element ∧ middle.Covers catalog element := by
      rcases Table.mem_values_insert ho with rfl | ho
      · exact hc field hf
      · exact h.closed other ho field hf
    obtain ⟨element, helement, hcovers⟩ := hcovered
    exact ⟨element, helement, hcovers.stageMessage hp hi⟩

end Sound
end Draft

namespace Registration
variable {S : Schema} {catalog : Catalog} {strict : Bool} {fuel : Nat} {m : S.Message}
variable {draft final : Draft}

/-- What a successful walk over a message type leaves behind. -/
structure Walked (S : Schema) (catalog : Catalog) (strict : Bool) (m : S.Message)
    (draft final : Draft) : Prop where
  extension : Draft.Extends catalog draft final
  sound : Draft.Sound S catalog strict draft → Draft.Sound S catalog strict final
  covers : final.Covers catalog (.message (S.messageName m))

structure WalkedFields (S : Schema) (catalog : Catalog) (strict : Bool) (position : Nat)
    (fields : List S.Field) (draft : Draft) (infos : List FieldInfo) (final : Draft) : Prop where
  extension : Draft.Extends catalog draft final
  sound : Draft.Sound S catalog strict draft → Draft.Sound S catalog strict final
  read : S.ReadFields strict position fields infos
  covers : ∀ info ∈ infos, ∃ element, info.HasElement element ∧ final.Covers catalog element

theorem Ensured.extension {type : S.FieldType}
    (h : Ensured S catalog strict (Walked S catalog strict) type draft final) :
    Draft.Extends catalog draft final := by
  cases h with
  | scalar kind => exact .refl _
  | message h => exact h.extension
  | knownEnum h => exact .refl _
  | newEnum hn h => exact .stageEnum _ _

theorem Ensured.sound {type : S.FieldType}
    (h : Ensured S catalog strict (Walked S catalog strict) type draft final)
    (hs : Draft.Sound S catalog strict draft) : Draft.Sound S catalog strict final := by
  cases h with
  | scalar kind => exact hs
  | message h => exact h.sound hs
  | knownEnum h => exact hs
  | @newEnum e _ info hn h =>
    obtain ⟨hwf, rfl⟩ := Schema.describe?_eq_ok_iff.mp h
    exact hs.stageEnum (Schema.describesEnum_describe e) hwf

theorem Ensured.covers {type : S.FieldType}
    (h : Ensured S catalog strict (Walked S catalog strict) type draft final) :
    final.Covers catalog (S.elementOf type) := by
  cases h with
  | scalar kind => trivial
  | message h => exact h.covers
  | knownEnum h => exact h
  | @newEnum e _ info hn h =>
    obtain ⟨_, rfl⟩ := Schema.describe?_eq_ok_iff.mp h
    exact Draft.knowsEnum_stageEnum.mpr (Or.inr (Schema.describesEnum_describe e).name)

theorem Walked.revisit (h : S.messageName m ∈ draft.inProgress) :
    Walked S catalog strict m draft (draft.revisit (S.messageName m)) :=
  ⟨.revisit _ _, fun hs => hs.revisit _, Or.inl h⟩

theorem Walked.known (h : draft.Knows catalog (S.messageName m)) :
    Walked S catalog strict m draft draft :=
  ⟨.refl _, id, Or.inr h⟩

theorem Walked.describe {infos : List FieldInfo} {info : MessageInfo} (hm : S.Describable m)
    (h : WalkedFields S catalog strict 0 (S.message m).fields (draft.enter (S.messageName m))
      infos final)
    (hi : MessageInfo.ofFields? (S.messageName m) infos = .ok info) :
    Walked S catalog strict m draft ((final.leave (S.messageName m)).stageMessage info) := by
  have hd := Schema.describes_of_readFields h.read hi
  have hwf := Schema.wellFormedMessage_of_readFields hm.named hm.not_entry h.read hi
  refine ⟨h.extension.describe info, fun hs => ?_, ?_⟩
  · exact (h.sound (hs.enter _)).stageMessage h.extension.inProgress hd.name hd hwf
      (by rw [MessageInfo.fields_of_ofFields? hi]; exact h.covers)
  · exact Or.inr (Draft.knows_stageMessage.mpr (Or.inr hd.name))

theorem WalkedFields.nil (position : Nat) (draft : Draft) :
    WalkedFields S catalog strict position [] draft [] draft :=
  ⟨.refl _, id, .nil position, by simp⟩

theorem WalkedFields.cons {owner : String} {position : Nat} {field : S.Field}
    {fields : List S.Field} {form : Form S.Message S.Enum} {middle : Draft}
    {infos : List FieldInfo} (hf : S.form? strict owner field = .ok form)
    (he : Ensured S catalog strict (Walked S catalog strict) form.element draft middle)
    (h : WalkedFields S catalog strict (position + 1) fields middle infos final) :
    WalkedFields S catalog strict position (field :: fields) draft
      (S.describeField position field form :: infos) final := by
  obtain ⟨hident, hform⟩ := Schema.form?_eq_ok_iff.mp hf
  refine ⟨he.extension.trans h.extension, fun hs => h.sound (he.sound hs),
    .cons hident hform h.read, ?_⟩
  refine List.forall_mem_cons.mpr ⟨⟨S.elementOf form.element, ?_, ?_⟩, h.covers⟩
  · exact Schema.hasElement_describeField_iff.mpr rfl
  · exact h.extension.covers he.covers

theorem walk_walked (h : walk S catalog strict fuel m draft = .ok final) :
    Walked S catalog strict m draft final := by
  refine walk_induction (F := fun _ => WalkedFields S catalog strict) ?_ ?_ ?_ ?_ ?_ h
  · intro m draft _ hp
    exact .revisit hp
  · intro m draft _ _ hk
    exact .known hk
  · intro m draft infos middle info hm _ _ hw hi
    exact .describe hm hw hi
  · intro _ position draft
    exact .nil position draft
  · intro owner position field fields form draft middle infos final hf he hw
    exact .cons hf he hw

theorem walkFields_walked {owner : String} {position : Nat} {fields : List S.Field}
    {infos : List FieldInfo}
    (h : walkFields S catalog strict (walk S catalog strict fuel) owner position fields draft =
      .ok (infos, final)) :
    WalkedFields S catalog strict position fields draft infos final :=
  walkFields_induction (F := fun _ => WalkedFields S catalog strict)
    (fun _ _ _ => walk_walked) (fun _ => .nil)
    (fun _ _ _ _ _ _ _ _ _ hf he hw => .cons hf he hw) h

end Registration

namespace Schema

/-- The type of an element is met on the way from `root`. -/
def ReachesElement (S : Schema) (root : S.Message) : S.FieldType → Prop
  | .scalar _ => True
  | .message t => S.Reaches root t
  | .enum e => S.ReachesEnum root e

theorem Reaches.element {S : Schema} {root m : S.Message} (h : S.Reaches root m) {field : S.Field}
    (hf : field ∈ (S.message m).fields) {type : S.FieldType} (he : S.HasElement field type) :
    S.ReachesElement root type := by
  cases type with
  | scalar kind => trivial
  | message t => exact h.step ⟨field, hf, he⟩
  | enum e => exact ⟨m, h, field, hf, he⟩

def ReachesFields (S : Schema) (root : S.Message) (fields : List S.Field) : Prop :=
  ∀ field ∈ fields, ∀ type, S.HasElement field type → S.ReachesElement root type

theorem Reaches.fields {S : Schema} {root m : S.Message} (h : S.Reaches root m) :
    S.ReachesFields root (S.message m).fields :=
  fun _ hf _ he => h.element hf he

namespace ReachesFields
variable {S : Schema} {root : S.Message} {field : S.Field} {fields : List S.Field}

theorem head (h : S.ReachesFields root (field :: fields)) {type : S.FieldType}
    (he : S.HasElement field type) : S.ReachesElement root type :=
  h field List.mem_cons_self type he

theorem tail (h : S.ReachesFields root (field :: fields)) :
    S.ReachesFields root fields :=
  fun other ho => h other (List.mem_cons_of_mem field ho)

end ReachesFields

end Schema

/-- What is drafted anew is reached from `root`. -/
structure Draft.Gains (S : Schema) (root : S.Message) (draft final : Draft) : Prop where
  message : ∀ name, final.messages.contains name = true →
    draft.messages.contains name = true ∨ ∃ t, S.Reaches root t ∧ S.messageName t = name
  enum : ∀ name, final.enums.contains name = true →
    draft.enums.contains name = true ∨ ∃ e, S.ReachesEnum root e ∧ S.enumName e = name

namespace Draft.Gains
variable {S : Schema} {root : S.Message} {draft middle final : Draft}

theorem refl (draft : Draft) : Gains S root draft draft :=
  ⟨fun _ h => Or.inl h, fun _ h => Or.inl h⟩

theorem trans (h : Gains S root draft middle) (g : Gains S root middle final) :
    Gains S root draft final := by
  constructor
  · intro name hn
    rcases g.message name hn with hn | hn
    · exact h.message name hn
    · exact Or.inr hn
  · intro name hn
    rcases g.enum name hn with hn | hn
    · exact h.enum name hn
    · exact Or.inr hn

theorem stageMessage {m : S.Message} (hr : S.Reaches root m) {info : MessageInfo}
    (hi : info.name = S.messageName m) (draft : Draft) :
    Gains S root draft (draft.stageMessage info) := by
  refine ⟨fun name hn => ?_, fun _ h => Or.inl h⟩
  simp only [Draft.stageMessage, Table.contains_insert, Bool.or_eq_true, decide_eq_true_eq] at hn
  rcases hn with rfl | hn
  · exact Or.inr ⟨m, hr, hi.symm⟩
  · exact Or.inl hn

theorem stageEnum {e : S.Enum} (hr : S.ReachesEnum root e) {info : EnumInfo}
    (hi : info.name = S.enumName e) (draft : Draft) :
    Gains S root draft (draft.stageEnum info) := by
  refine ⟨fun _ h => Or.inl h, fun name hn => ?_⟩
  simp only [Draft.stageEnum, Table.contains_insert, Bool.or_eq_true, decide_eq_true_eq] at hn
  rcases hn with rfl | hn
  · exact Or.inr ⟨e, hr, hi.symm⟩
  · exact Or.inl hn

theorem knows (h : Gains S root draft final) {catalog : Catalog} {name : String}
    (hk : final.Knows catalog name) :
    draft.Knows catalog name ∨ ∃ t, S.Reaches root t ∧ S.messageName t = name := by
  rcases hk with hc | hd
  · exact Or.inl (Or.inl hc)
  · exact (h.message name hd).imp_left Or.inr

theorem knowsEnum (h : Gains S root draft final) {catalog : Catalog} {name : String}
    (hk : final.KnowsEnum catalog name) :
    draft.KnowsEnum catalog name ∨ ∃ e, S.ReachesEnum root e ∧ S.enumName e = name := by
  rcases hk with hc | hd
  · exact Or.inl (Or.inl hc)
  · exact (h.enum name hd).imp_left Or.inr

end Draft.Gains

namespace Registration
variable {S : Schema} {catalog : Catalog} {strict : Bool} {fuel : Nat} {root m : S.Message}
variable {draft final : Draft}

theorem Ensured.gains {type : S.FieldType}
    (h : Ensured S catalog strict
      (fun t draft final => S.Reaches root t → Draft.Gains S root draft final) type draft final)
    (hr : S.ReachesElement root type) : Draft.Gains S root draft final := by
  cases h with
  | scalar kind => exact .refl _
  | message h => exact h hr
  | knownEnum h => exact .refl _
  | @newEnum e _ info hn h =>
    obtain ⟨_, rfl⟩ := Schema.describe?_eq_ok_iff.mp h
    exact .stageEnum hr (Schema.describesEnum_describe e).name _

/-- A walk adds nothing that its message type does not reach. -/
theorem walk_gains (h : walk S catalog strict fuel m draft = .ok final) (hr : S.Reaches root m) :
    Draft.Gains S root draft final := by
  revert hr
  refine walk_induction
    (P := fun m draft final => S.Reaches root m → Draft.Gains S root draft final)
    (F := fun _ _ fields draft _ final =>
      S.ReachesFields root fields → Draft.Gains S root draft final) ?_ ?_ ?_ ?_ ?_ h
  · intro m draft _ _ _
    exact ⟨fun _ h => Or.inl h, fun _ h => Or.inl h⟩
  · intro m draft _ _ _ _
    exact .refl _
  · intro m draft infos middle info _ _ _ hw hi hr
    have hg := hw hr.fields
    have hname := MessageInfo.name_of_ofFields? hi
    have hentered : Draft.Gains S root draft (middle.leave (S.messageName m)) :=
      ⟨hg.message, hg.enum⟩
    exact hentered.trans (.stageMessage hr hname _)
  · intro _ _ draft _
    exact .refl _
  · intro owner position field fields form draft middle infos final hf he hw hr
    exact (he.gains (hr.head (Schema.hasElement_of_form? hf))).trans (hw hr.tail)

end Registration
end MessageRegistry
