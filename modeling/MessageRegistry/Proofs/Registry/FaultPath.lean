import MessageRegistry.Proofs.Registration.FaultPath
import MessageRegistry.Proofs.Registry.History

/-!
What the fault of a failed registration tells. Main statement: its links lead along declared fields,
from the message type that was asked for to the one to blame, through types that were not published
and have different names.
-/
namespace MessageRegistry

/-- A book that refers to itself, a map of its pages, which refer back to it, and an index behind
each page in which two fields are exported under one name. -/
def Schema.book : Schema where
  messageCount := 4
  enumCount := 0
  messages := #v[
    ⟨"b.Book", [.message "sequel" 1 (.declared 0), .map "pages" 2 (.declared 1)], false⟩,
    ⟨"b.Book.PagesEntry", [.scalar "key" 1 .int32, .message "value" 2 (.declared 2)], true⟩,
    ⟨"b.Page", [.message "book" 1 (.declared 0), .message "index" 2 (.declared 3)], false⟩,
    ⟨"b.Index", [.scalar "first_page" 1 .int32, .scalar "firstPage" 2 .int32], false⟩]
  enums := Schema.empty.enums

def Schema.book.root : Schema.book.Message := .declared ⟨0, by decide⟩

namespace Registry
variable {S : Schema} {registry : Registry} {m : S.Message}

/-- A registration that fails tells the path to what it failed for: the links of its fault are
fields of message types, each the element of the one before it, that were not published, and no two
of those types share a name. The fault behind the links is true of the type they lead to, and names
one that is neither published nor on the path. -/
theorem rejection_tells_path {reason : Failure}
    (h : (registry.register S m).answer = .error reason) :
    ∃ links target root, reason = .rejected (S.faultAlong links root) ∧ root.source? = none ∧
      S.Leads (.message m) links target ∧ (S.linkNames links).Nodup ∧
      (∀ name ∈ S.linkNames links, registry.catalog.message? name = none) ∧
      S.Blames registry.catalog registry.config.strictNames (S.linkNames links) target root := by
  have hregistered : Registered S registry m (registry.register S m) := registered_register
  by_cases hn : S.messageName m = ""
  · obtain rfl := Except.error.inj (h.symm.trans (hregistered.answer_of_unnamed hn))
    exact ⟨[], .message m, .emptyTypeName, rfl, rfl, .here _, List.nodup_nil,
      by simp [Schema.linkNames], .unnamed hn⟩
  · obtain ⟨fault, trail, hd, hanswer⟩ := hregistered.exists_fault hn (by simp [h])
    obtain rfl := Except.error.inj (h.symm.trans hanswer)
    obtain ⟨links, target, root, rfl, hpath⟩ := Registration.draftMessage_faultPath hd
    have hblames := hpath.blames
    rw [List.append_nil] at hblames
    exact ⟨links, target, root, rfl, hblames.source?_eq_none, hpath.leads, hpath.nodup,
      hpath.unpublished, hblames⟩

theorem rejection_tells_path_book :
    ((create 0 {}).registry.register .book Schema.book.root).answer =
      .error (.rejected (.inField "b.Book" "pages" (.inField "b.Page" "index"
        (.duplicateFieldName "b.Index" "FirstPage")))) ∧
    ∃ links target root,
      Failure.rejected (.inField "b.Book" "pages" (.inField "b.Page" "index"
        (.duplicateFieldName "b.Index" "FirstPage"))) =
          .rejected (Schema.book.faultAlong links root) ∧ root.source? = none ∧
      Schema.book.Leads (.message Schema.book.root) links target ∧
      (Schema.book.linkNames links).Nodup ∧
      (∀ name ∈ Schema.book.linkNames links,
        (create 0 {}).registry.catalog.message? name = none) ∧
      Schema.book.Blames (create 0 {}).registry.catalog (create 0 {}).registry.config.strictNames
        (Schema.book.linkNames links) target root := by
  have hanswer : ((create 0 {}).registry.register .book Schema.book.root).answer =
      .error (.rejected (.inField "b.Book" "pages" (.inField "b.Page" "index"
        (.duplicateFieldName "b.Index" "FirstPage")))) := by
    decide +kernel
  exact ⟨hanswer, rejection_tells_path hanswer⟩

end Registry
end MessageRegistry
