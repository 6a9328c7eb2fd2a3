import MessageRegistry.Proofs.Registry.Reachable
import MessageRegistry.Proofs.Schema.FieldType

/-!
What published descriptions refer to. Main statement: every type that the description of a published
type refers to, or that its fields' semantic types mention, is published as well, even where names
clash.
-/
namespace MessageRegistry

namespace Catalog.Sound
variable {S : Schema} {strict : Bool} {catalog : Catalog} {name typeName : String}
variable {shared : Shared MessageInfo} {field : FieldInfo}

theorem covers_of_mentions (h : Sound S strict catalog)
    (hm : catalog.message? name = some shared) (hf : field ∈ shared.value.fields)
    (ht : field.type.Mentions typeName) : catalog.Covers (.message typeName) := by
  obtain ⟨m, _, hd, hwf⟩ := h.message name shared hm
  obtain ⟨element, hmakes⟩ := hd.makes hwf hf
  have htype := Element.mentions_type_iff.mp (hmakes.type.mentions_iff.mp ht)
  obtain ⟨rfl, _⟩ := Element.type_eq_message_iff.mp htype
  obtain ⟨stored, hstored, hcovers⟩ := h.closed name shared hm field hf
  rwa [hstored.unique hmakes.stores] at hcovers

end Catalog.Sound

namespace Catalog.Covers
variable {catalog : Catalog} {field : FieldInfo} {element : Element}

theorem mem_messages (h : catalog.Covers element) (he : field.HasElement element)
    (hf : field.isMessage = true) :
    ∃ typeName ∈ catalog.messages.keys, field.typeName? = some typeName := by
  cases element with
  | message typeName => exact ⟨typeName, (Table.contains_iff _ _).mp h, he.typeName?⟩
  | scalar _ | enum _ => simp [FieldInfo.isMessage, he.kind, Element.kind] at hf

theorem mem_enums (h : catalog.Covers element) (he : field.HasElement element)
    (hf : field.isEnum = true) :
    ∃ enumName ∈ catalog.enums.keys, field.typeName? = some enumName := by
  cases element with
  | enum enumName => exact ⟨enumName, (Table.contains_iff _ _).mp h, he.typeName?⟩
  | scalar _ | message _ => simp [FieldInfo.isEnum, he.kind, Element.kind] at hf

end Catalog.Covers

/-- Twins that share a name, and so do their enums, a peer that refers to the other twin while the
first is in progress, a type that takes the name of a well-known one, and one that takes the name of
an enum. -/
def Schema.clash : Schema where
  messageCount := 6
  enumCount := 2
  messages := #v[
    ⟨"c.Twin", [.message "peer" 1 (.declared 1), .enum "mode" 2 (.declared 0)], false⟩,
    ⟨"c.Peer", [.message "twin" 1 (.declared 2), .message "payload" 2 (.declared 3),
      .map "twins" 3 (.declared 4), .message "mode" 4 (.declared 5)], false⟩,
    ⟨".c.Twin", [.enum "tone" 1 (.declared 1)], false⟩,
    ⟨"google.protobuf.Any", [.scalar "empty" 1 .bool], false⟩,
    ⟨"c.Peer.TwinsEntry", [.scalar "key" 1 .string, .message "value" 2 (.declared 2)], true⟩,
    ⟨"c.Mode", [.message "twin" 1 (.declared 0)], false⟩]
  enums := #v[⟨"c.Mode", [⟨"OFF", 0⟩]⟩, ⟨".c.Mode", [⟨"ON", 1⟩]⟩]

namespace Schema.clash

def twin : clash.Message := .declared ⟨0, by decide⟩

def any : clash.Message := .declared ⟨3, by decide⟩

end Schema.clash

namespace Registry
variable {S : Schema} {registry : Registry}

/-- No description refers to a type that is not published, whichever declarations share a name. -/
theorem published_closed (hr : Reachable S registry) :
    ∀ name shared, registry.catalog.message? name = some shared → ∀ field ∈ shared.value.fields,
      (field.isMessage = true →
        ∃ typeName ∈ registry.catalog.messages.keys, field.typeName? = some typeName) ∧
      (field.isEnum = true →
        ∃ enumName ∈ registry.catalog.enums.keys, field.typeName? = some enumName) ∧
      ∀ typeName, field.type.Mentions typeName → typeName ∈ registry.catalog.messages.keys := by
  intro name shared hm field hf
  obtain ⟨element, he, hcovers⟩ := hr.sound.closed name shared hm field hf
  refine ⟨hcovers.mem_messages he, hcovers.mem_enums he, fun typeName ht => ?_⟩
  exact (Table.contains_iff _ _).mp (hr.sound.covers_of_mentions hm hf ht)

/-- The map that a peer has of twins mentions them inside its type, and they are published. -/
theorem published_closed_clash :
    ∃ shared field, ((create 0 {}).registry.register .clash
        Schema.clash.twin).registry.catalog.message? "c.Peer" = some shared ∧
      field ∈ shared.value.fields ∧
      field.type = .map (.primitive .string) (.message "c.Twin") ∧
      "c.Twin" ∈ ((create 0 {}).registry.register .clash
        Schema.clash.twin).registry.catalog.messages.keys := by
  have hpeer : (((create 0 {}).registry.register .clash
      Schema.clash.twin).registry.catalog.message? "c.Peer").any (fun shared =>
        shared.value.fields.any fun field =>
          field.type = .map (.primitive .string) (.message "c.Twin")) = true := by
    decide +kernel
  obtain ⟨shared, hm, hfields⟩ := (Option.any_eq_true _ _).mp hpeer
  obtain ⟨field, hf, htype⟩ := List.any_eq_true.mp hfields
  have ht := of_decide_eq_true htype
  have hr := (Reachable.create 0 {}).register Schema.clash.twin
  have hmentions : field.type.Mentions "c.Twin" := by
    rw [ht]
    exact Or.inr rfl
  exact ⟨shared, field, hm, hf, ht,
    (published_closed hr "c.Peer" shared hm field hf).2.2 "c.Twin" hmentions⟩

end Registry
end MessageRegistry
