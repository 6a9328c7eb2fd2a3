import MessageRegistry.Proofs.Registry.Acceptance
import MessageRegistry.Proofs.Schema.Embedding

/-!
Names written with a leading dot. Main statement: a run goes the same way whichever declarations
and questions write the name of a type with a dot.
-/
namespace MessageRegistry

namespace Name

def withDot (dot : Bool) (name : String) : String := if dot then "." ++ name else name

def Dotless (name : String) : Prop := name.toList.head? ≠ some '.'

instance (name : String) : Decidable (Dotless name) := inferInstanceAs (Decidable (_ ≠ _))

theorem dropDot_of_head? {cs : List Char} (h : cs.head? ≠ some '.') : dropDot cs = cs := by
  cases cs with
  | nil => rfl
  | cons c cs =>
    unfold dropDot
    split
    · rename_i hc
      obtain ⟨rfl, _⟩ := List.cons.inj hc
      exact absurd rfl h
    · rfl

theorem normalize_withDot (dot : Bool) {name : String} (h : Dotless name) :
    normalize (withDot dot name) = normalize name := by
  cases dot with
  | false => rfl
  | true =>
    have hkept : dropDot ("." ++ name).toList = dropDot name.toList := by
      rw [String.toList_append, dropDot_of_head? h]
      rfl
    exact congrArg String.ofList hkept

end Name

namespace Schema
variable (S : Schema) (messages : Fin S.messageCount → Bool) (enums : Fin S.enumCount → Bool)

/-- The schema in which the chosen types are declared with a leading dot. -/
def withDots : Schema where
  messageCount := S.messageCount
  enumCount := S.enumCount
  messages := .ofFn fun index =>
    let decl := S.message (.declared index)
    { decl with name := Name.withDot (messages index) decl.name }
  enums := .ofFn fun index =>
    let decl := S.enum (.declared index)
    { decl with name := Name.withDot (enums index) decl.name }

/-- No type is declared with a leading dot. -/
structure Dotless : Prop where
  message : ∀ index, Name.Dotless (S.message (.declared index)).name
  enum : ∀ index, Name.Dotless (S.enum (.declared index)).name

variable {S messages enums}

theorem message_withDots (index : Fin S.messageCount) :
    (S.withDots messages enums).message (.declared index) =
      { S.message (.declared index) with
        name := Name.withDot (messages index) (S.message (.declared index)).name } :=
  Vector.getElem_ofFn index.isLt

theorem enum_withDots (index : Fin S.enumCount) :
    (S.withDots messages enums).enum (.declared index) =
      { S.enum (.declared index) with
        name := Name.withDot (enums index) (S.enum (.declared index)).name } :=
  Vector.getElem_ofFn index.isLt

theorem messageName_withDots (h : S.Dotless) (index : Fin S.messageCount) :
    (S.withDots messages enums).messageName (.declared index) =
      S.messageName (.declared index) := by
  rw [messageName, message_withDots, Name.normalize_withDot _ (h.message index)]
  rfl

theorem enumName_withDots (h : S.Dotless) (index : Fin S.enumCount) :
    (S.withDots messages enums).enumName (.declared index) = S.enumName (.declared index) := by
  rw [enumName, enum_withDots, Name.normalize_withDot _ (h.enum index)]
  rfl

theorem isMapEntry_withDots (index : Fin S.messageCount) :
    ((S.withDots messages enums).message (.declared index)).isMapEntry =
      (S.message (.declared index)).isMapEntry := by
  rw [message_withDots]

theorem fields_withDots (index : Fin S.messageCount) :
    ((S.withDots messages enums).message (.declared index)).fields =
      (S.message (.declared index)).fields := by
  rw [message_withDots]

theorem values_withDots (index : Fin S.enumCount) :
    ((S.withDots messages enums).enum (.declared index)).values =
      (S.enum (.declared index)).values := by
  rw [enum_withDots]

theorem mapRefs_id {M E : Type} (fields : List (FieldDecl M E)) :
    fields.map (·.mapRefs id id) = fields := by
  have hfield : ∀ field ∈ fields, field.mapRefs id id = field := by
    rintro ⟨name, number, type, label, oneof⟩ _
    cases type <;> rfl
  rw [List.map_congr_left hfield, List.map_id']

variable (messages enums)

def Dotless.embedding (h : S.Dotless) : Embedding S (S.withDots messages enums) where
  message := id
  enum := id
  messageName
    | .wellKnown message => by cases message <;> rfl
    | .declared index => messageName_withDots h index
  isMapEntry
    | .wellKnown message => by cases message <;> rfl
    | .declared index => isMapEntry_withDots index
  fields
    | .wellKnown message => by cases message <;> rfl
    | .declared index => (fields_withDots index).trans (mapRefs_id _).symm
  enumName
    | .nullValue => rfl
    | .declared index => enumName_withDots h index
  values
    | .nullValue => rfl
    | .declared index => values_withDots index

end Schema

namespace Operation
variable {S : Schema} (messages : Fin S.messageCount → Bool) (enums : Fin S.enumCount → Bool)

def query? : Operation S → Option String
  | .describe name | .describeEnum name | .describeEnumValue name | .contains name => some name
  | _ => none

/-- The operation on the schema with dots, where a question is asked with a leading dot if `dot`
says so. -/
def withDots (dot : Bool) : Operation S → Operation (S.withDots messages enums)
  | .register m => .register m
  | .registerTypeOf m => .registerTypeOf m
  | .registerEnum e => .registerEnum e
  | .describe name => .describe (Name.withDot dot name)
  | .describeEnum name => .describeEnum (Name.withDot dot name)
  | .describeEnumValue name => .describeEnumValue (Name.withDot dot name)
  | .contains name => .contains (Name.withDot dot name)
  | .size => .size
  | .isEmpty => .isEmpty
  | .typeNames => .typeNames
  | .config => .config

end Operation

namespace Registry
variable {S : Schema} (messages : Fin S.messageCount → Bool) (enums : Fin S.enumCount → Bool)

theorem perform_withDots (hS : S.Dotless) (registry : Registry) (operation : Operation S)
    (hquery : ∀ name ∈ operation.query?, Name.Dotless name) (dot : Bool) :
    registry.perform (operation.withDots messages enums dot) = registry.perform operation := by
  cases operation with
  | register m | registerTypeOf m =>
    have h : registry.register (S.withDots messages enums) m = registry.register S m :=
      (hS.embedding messages enums).register registry m
    exact congrArg (Outcome.map _) h
  | registerEnum e =>
    have h : registry.registerEnum (S.withDots messages enums) e = registry.registerEnum S e :=
      (hS.embedding messages enums).registerEnum registry e
    exact congrArg (Outcome.map _) h
  | describe name | describeEnum name | describeEnumValue name | contains name =>
    have hname := Name.normalize_withDot dot (hquery name rfl)
    simp only [Operation.withDots, perform, Registry.describe, Registry.describeEnum,
      Registry.describeEnumValue, Registry.contains, hname]
  | size | isEmpty | typeNames | config => rfl

/-- Whichever types are declared with a leading dot, and whichever questions are asked with one,
every step of a run gives the same answer, reports the same and leaves the same registry behind. -/
theorem run_withDots (hS : S.Dotless) (registry : Registry) (steps : List (Operation S × Bool))
    (hquery : ∀ step ∈ steps, ∀ name ∈ step.1.query?, Name.Dotless name) :
    registry.run (steps.map fun step => step.1.withDots messages enums step.2) =
      registry.run (steps.map Prod.fst) := by
  induction steps generalizing registry with
  | nil => rfl
  | cons step steps ih =>
    obtain ⟨hstep, hsteps⟩ := List.forall_mem_cons.mp hquery
    simp only [List.map_cons, run]
    rw [perform_withDots messages enums hS registry step.1 hstep step.2, ih _ hsteps]

/-- A rejected holder, then a node, and questions about what came with it. -/
def treeSteps : List (Operation .tree × Bool) :=
  [(.registerTypeOf Schema.tree.holder, false), (.register Schema.tree.node, false),
    (.describe "t.Leaf", true), (.describeEnumValue "t.Color.RED", true),
    (.contains "t.Holder", true)]

/-- The map entry of the nodes, the broken type and the color may be declared with a dot. -/
theorem run_withDots_tree :
    (create 0 {}).registry.run (treeSteps.map fun step =>
        step.1.withDots (fun index => index.val % 2 = 1) (fun _ => true) step.2) =
      (create 0 {}).registry.run (treeSteps.map Prod.fst) :=
  run_withDots _ _ ⟨by decide +kernel, by decide +kernel⟩ (create 0 {}).registry treeSteps
    (by decide +kernel)

end Registry
end MessageRegistry
