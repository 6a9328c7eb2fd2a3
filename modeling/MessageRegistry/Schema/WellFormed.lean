import MessageRegistry.Schema.Basic

/-!
Which types a message type refers to, directly and through others, and when declarations may be
described. A map field refers to the type of its entry's value and never to the entry itself. A
type may be described where whatever it reaches is well formed; each condition looks at one
declaration and, for map fields, at the entry behind the field.
-/
namespace MessageRegistry.Schema
variable (S : Schema)

def TypedByEntry (field : S.Field) (entry : S.Message) : Prop :=
  field.type = .message entry ∧ (S.message entry).isMapEntry = true

/-- What one element of a field is, read off the declarations alone. -/
inductive HasElement (field : S.Field) : S.FieldType → Prop
  | plain (h : ∀ entry, ¬ S.TypedByEntry field entry) : HasElement field field.type
  | mapValue {entry : S.Message} {key value : S.Field} (h : S.TypedByEntry field entry)
      (hf : (S.message entry).fields = [key, value]) : HasElement field value.type

def RefersTo (m target : S.Message) : Prop :=
  ∃ field ∈ (S.message m).fields, S.HasElement field (.message target)

def RefersToEnum (m : S.Message) (target : S.Enum) : Prop :=
  ∃ field ∈ (S.message m).fields, S.HasElement field (.enum target)

/-- The message types met on the way from `m` along references, `m` included. -/
inductive Reaches (m : S.Message) : S.Message → Prop
  | refl : Reaches m m
  | step {t u : S.Message} : Reaches m t → S.RefersTo t u → Reaches m u

def ReachesEnum (m : S.Message) (target : S.Enum) : Prop :=
  ∃ t, S.Reaches m t ∧ S.RefersToEnum t target

/-- Different message types have different names, and so have different enums. -/
structure NamesDistinct : Prop where
  message : ∀ a b : S.Message, S.messageName a = S.messageName b → a = b
  enum : ∀ a b : S.Enum, S.enumName a = S.enumName b → a = b

instance : Decidable S.NamesDistinct :=
  decidable_of_iff
    ((∀ a ∈ S.allMessages, ∀ b ∈ S.allMessages, S.messageName a = S.messageName b → a = b) ∧
      ∀ a ∈ S.allEnums, ∀ b ∈ S.allEnums, S.enumName a = S.enumName b → a = b)
    ⟨fun h => ⟨fun a b => h.1 a (S.mem_allMessages a) b (S.mem_allMessages b),
      fun a b => h.2 a (S.mem_allEnums a) b (S.mem_allEnums b)⟩,
      fun h => ⟨fun a _ b _ => h.message a b, fun a _ b _ => h.enum a b⟩⟩

theorem Reaches.trans {a b c : S.Message} (h : S.Reaches a b) (g : S.Reaches b c) :
    S.Reaches a c := by
  induction g with
  | refl => exact h
  | step _ hr ih => exact ih.step hr

theorem RefersTo.reaches {a b : S.Message} (h : S.RefersTo a b) : S.Reaches a b :=
  .step .refl h

/-- The name of a well-known type is written without a leading dot. -/
theorem messageName_wellKnown (message : WellKnownMessage) :
    S.messageName (.wellKnown message) = message.name := by
  have hname : Name.normalize message.name = message.name := by cases message <;> decide +kernel
  rw [messageName, Schema.message, WellKnownMessage.name_decl, hname]

theorem enumName_nullValue : S.enumName .nullValue = WellKnown.nullValueName := by
  have hname : Name.normalize WellKnown.nullValueName = WellKnown.nullValueName := by
    decide +kernel
  rw [enumName, Schema.enum, EnumDecl.nullValue, hname]

theorem namesDistinct_of_declared
    (hm : ∀ i j, S.messageName (.declared i) = S.messageName (.declared j) → i = j)
    (hwellKnown : ∀ i, S.messageName (.declared i) ∉ WellKnownMessage.all.map WellKnownMessage.name)
    (he : ∀ i j, S.enumName (.declared i) = S.enumName (.declared j) → i = j)
    (hnull : ∀ i, S.enumName (.declared i) ≠ WellKnown.nullValueName) : S.NamesDistinct := by
  have hapart : ∀ i message, S.messageName (.declared i) ≠ S.messageName (.wellKnown message) := by
    intro i message h
    apply hwellKnown i
    rw [h, messageName_wellKnown]
    exact List.mem_map_of_mem message.mem_all
  constructor
  · rintro (a | i) (b | j) h
    · rw [messageName_wellKnown, messageName_wellKnown] at h
      rw [WellKnownMessage.name_injective a b h]
    · exact absurd h.symm (hapart j a)
    · exact absurd h (hapart i b)
    · rw [hm i j h]
  · rintro (_ | i) (_ | j) h
    · rfl
    · exact absurd (h.symm.trans S.enumName_nullValue) (hnull j)
    · exact absurd (h.trans S.enumName_nullValue) (hnull i)
    · rw [he i j h]

theorem namesDistinct_empty : NamesDistinct .empty :=
  namesDistinct_of_declared .empty (fun i => i.elim0) (fun i => i.elim0) (fun i => i.elim0)
    fun i => i.elim0

/-- A map entry holds a scalar key and a value, in this order. -/
def ProperEntry (entry : S.Message) : Prop :=
  ∃ key value kind, (S.message entry).fields = [key, value] ∧ key.name = "key" ∧
    value.name = "value" ∧ key.isRepeated = false ∧ value.isRepeated = false ∧
    key.type = .scalar kind ∧ kind ∉ [ScalarKind.double, .float, .bytes]

structure WellFormedMessage (strict : Bool) (m : S.Message) : Prop where
  named : S.messageName m ≠ ""
  not_entry : (S.message m).isMapEntry = false
  identifiers : strict = true → ∀ field ∈ (S.message m).fields, Name.isIdentifier field.name = true
  names : ((S.message m).fields.map (·.name)).Nodup
  exportedNames : ((S.message m).fields.map fun field => Name.exported field.name).Nodup
  numbers : ((S.message m).fields.map (·.number)).Nodup
  maps : ∀ field ∈ (S.message m).fields, ∀ entry, S.TypedByEntry field entry →
    field.isRepeated = true ∧ S.ProperEntry entry

structure WellFormedEnum (strict : Bool) (e : S.Enum) : Prop where
  named : S.enumName e ≠ ""
  names : ((S.enum e).values.map (·.name)).Nodup
  identifiers : strict = true → ∀ value ∈ (S.enum e).values, Name.isIdentifier value.name = true

/-- Whatever a message type reaches is well formed. -/
def WellFormedFrom (strict : Bool) (m : S.Message) : Prop :=
  (∀ t, S.Reaches m t → S.WellFormedMessage strict t) ∧
    ∀ e, S.ReachesEnum m e → S.WellFormedEnum strict e

end MessageRegistry.Schema
