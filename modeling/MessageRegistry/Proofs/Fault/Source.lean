import Mathlib.Data.List.Infix
import MessageRegistry.Fault

/-!
Three readings of a fault: the walk along its sources, its root cause, and its text. Main statement:
they agree, however many links lead to the cause. The walk meets what is behind each link and ends
at the cause, all that it meets has this root cause, and the text names the links in their order.
-/
namespace MessageRegistry
namespace Fault

/-- A link without the fault it leads to. -/
structure Link where
  typeName : String
  field : String

def Link.wrap (link : Link) (source : Fault) : Fault := .inField link.typeName link.field source

def Link.text (link : Link) : String := link.typeName ++ "." ++ link.field ++ ": "

def IsCause (fault : Fault) : Prop := ∀ (link : Link) (source : Fault), fault ≠ link.wrap source

/-- The faults met by a walk that goes from each fault to its source, as long as there is one. -/
inductive Follows : Option Fault → List Fault → Prop
  | done : Follows none []
  | next {fault : Fault} {rest : List Fault} (h : Follows fault.source? rest) :
      Follows (some fault) (fault :: rest)

section Wrap
variable {root source : Fault} (link : Link)

@[simp] theorem source?_wrap : (link.wrap source).source? = some source := rfl

@[simp] theorem rootCause_wrap : (link.wrap source).rootCause = source.rootCause := rfl

@[simp] theorem chain_wrap : (link.wrap source).chain = link.wrap source :: source.chain := rfl

@[simp] theorem message_wrap : (link.wrap source).message = link.text ++ source.message := rfl

theorem source?_eq_none_iff : root.source? = none ↔ root.IsCause := by
  constructor
  · rintro h link source rfl
    simp at h
  · intro h
    cases root with
    | inField typeName field source => exact (h ⟨typeName, field⟩ source rfl).elim
    | _ => rfl

instance : DecidablePred IsCause := fun _ => decidable_of_iff _ source?_eq_none_iff

/-- The root cause of a fault is that of its source. -/
theorem rootCause_eq_elim (fault : Fault) :
    fault.rootCause = fault.source?.elim fault rootCause := by
  cases fault <;> rfl

/-- A fault is followed by its source, and that by the rest of the chain. -/
theorem chain_eq_cons (fault : Fault) : fault.chain = fault :: fault.source?.elim [] chain := by
  cases fault <;> rfl

theorem IsCause.rootCause_eq (h : root.IsCause) : root.rootCause = root := by
  rw [rootCause_eq_elim, source?_eq_none_iff.mpr h, Option.elim_none]

theorem IsCause.chain_eq (h : root.IsCause) : root.chain = [root] := by
  rw [chain_eq_cons, source?_eq_none_iff.mpr h, Option.elim_none]

end Wrap

def behind (links : List Link) (root : Fault) : Fault := links.foldr Link.wrap root

@[simp] theorem behind_nil (root : Fault) : behind [] root = root := rfl

@[simp] theorem behind_cons (link : Link) (links : List Link) (root : Fault) :
    behind (link :: links) root = link.wrap (behind links root) := rfl

theorem exists_eq_behind (fault : Fault) :
    ∃ links root, IsCause root ∧ fault = behind links root := by
  induction fault with
  | inField typeName field source ih =>
    obtain ⟨links, root, hroot, rfl⟩ := ih
    exact ⟨⟨typeName, field⟩ :: links, root, hroot, rfl⟩
  | _ => exact ⟨[], _, source?_eq_none_iff.mp rfl, rfl⟩

section Behind
variable {links : List Link} {root : Fault}

theorem rootCause_behind (h : root.IsCause) : (behind links root).rootCause = root := by
  induction links with
  | nil => exact h.rootCause_eq
  | cons link links ih => rw [behind_cons, rootCause_wrap, ih]

theorem chain_behind (h : root.IsCause) :
    (behind links root).chain = links.tails.map (behind · root) := by
  induction links with
  | nil => exact h.chain_eq
  | cons link links ih =>
    rw [behind_cons, chain_wrap, ih, List.tails_cons, List.map_cons, behind_cons]

theorem message_behind :
    (behind links root).message = String.join (links.map Link.text) ++ root.message := by
  induction links with
  | nil => simp
  | cons link links ih =>
    rw [behind_cons, message_wrap, ih, List.map_cons, String.join_cons, String.append_assoc]

end Behind

section Chain
variable {fault source : Fault} {next : Option Fault} {visited : List Fault}

theorem isCause_rootCause (fault : Fault) : fault.rootCause.IsCause := by
  obtain ⟨links, root, hroot, rfl⟩ := exists_eq_behind fault
  rwa [rootCause_behind hroot]

theorem follows_chain (fault : Fault) : Follows (some fault) fault.chain := by
  induction fault with
  | inField typeName field source ih => exact .next ih
  | _ => exact .next .done

/-- Where a walk begins decides what it meets. -/
theorem follows_iff : Follows next visited ↔ visited = next.elim [] chain := by
  constructor
  · intro h
    induction h with
    | done => rfl
    | @next fault rest _ ih =>
      rw [ih]
      exact (chain_eq_cons fault).symm
  · rintro rfl
    cases next with
    | none => exact .done
    | some fault => exact follows_chain fault

theorem getLast?_chain (fault : Fault) : fault.chain.getLast? = some fault.rootCause := by
  induction fault with
  | inField typeName field source ih =>
    rw [chain, List.getLast?_cons, ih]
    rfl
  | _ => rfl

/-- A fault and its source have one root cause, which all of the chain shares. -/
theorem rootCause_of_mem_chain (h : source ∈ fault.chain) :
    source.rootCause = fault.rootCause := by
  induction fault with
  | inField typeName field inner ih =>
    rcases List.mem_cons.mp h with rfl | h
    · rfl
    · exact ih h
  | _ => rw [List.mem_singleton.mp h]

end Chain

/-- A fault met at a third field: two fields of an index are exported under one name. -/
def shelved : Fault :=
  .inField "b.Shelf" "books" (.inField "b.Book" "pages" (.inField "b.Page" "index"
    (.duplicateFieldName "b.Index" "FirstPage")))

def shelvedLinks : List Link := [⟨"b.Shelf", "books"⟩, ⟨"b.Book", "pages"⟩, ⟨"b.Page", "index"⟩]

end Fault

namespace Failure

/-- The sources of a failure are the faults that a walk along them meets. -/
theorem follows_source?_iff {failure : Failure} {visited : List Fault} :
    Fault.Follows failure.source? visited ↔ visited = failure.sources := by
  cases failure <;> exact Fault.follows_iff

theorem getLast?_sources (failure : Failure) : failure.sources.getLast? = failure.rootCause? := by
  cases failure with
  | notFound name => rfl
  | rejected fault => exact fault.getLast?_chain

/-- However many links lead to a cause, a walk along the sources of the failure meets the fault and
what is behind each of its links, and nothing else; it ends at the cause, which is the root cause of
all that it meets. The text tells the links in this order, and then the cause. -/
theorem readings_agree {links : List Fault.Link} {root fault : Fault} (hroot : root.IsCause)
    (hfault : fault = .behind links root) :
    (∀ visited, Fault.Follows (rejected fault).source? visited ↔
      visited = (rejected fault).sources) ∧
    (rejected fault).sources = links.tails.map (Fault.behind · root) ∧
    (rejected fault).sources.length = links.length + 1 ∧
    (rejected fault).sources.getLast? = some root ∧
    (∀ source ∈ (rejected fault).sources,
      source.rootCause = root ∧ source.rootCause.IsCause) ∧
    fault.message = String.join (links.map Fault.Link.text) ++ root.message ∧
    (rejected fault).message = "Registration failed: " ++ fault.message := by
  subst hfault
  have hsources : (rejected (.behind links root)).sources = links.tails.map (Fault.behind · root) :=
    Fault.chain_behind hroot
  have hcause : (Fault.behind links root).rootCause = root := Fault.rootCause_behind hroot
  refine ⟨fun _ => follows_source?_iff, hsources, ?_, ?_, ?_, Fault.message_behind, rfl⟩
  · rw [hsources, List.length_map, List.length_tails]
  · rw [getLast?_sources, rootCause?, hcause]
  · intro source h
    exact ⟨(Fault.rootCause_of_mem_chain h).trans hcause, source.isCause_rootCause⟩

theorem readings_agree_shelved :
    Fault.IsCause (.duplicateFieldName "b.Index" "FirstPage") ∧
    Fault.shelved = .behind Fault.shelvedLinks (.duplicateFieldName "b.Index" "FirstPage") ∧
    (∀ visited, Fault.Follows (rejected .shelved).source? visited ↔
      visited = (rejected .shelved).sources) ∧
    (rejected .shelved).sources =
      [.shelved,
        .inField "b.Book" "pages"
          (.inField "b.Page" "index" (.duplicateFieldName "b.Index" "FirstPage")),
        .inField "b.Page" "index" (.duplicateFieldName "b.Index" "FirstPage"),
        .duplicateFieldName "b.Index" "FirstPage"] ∧
    (rejected .shelved).sources.length = 4 ∧
    (rejected .shelved).sources.getLast? = some (.duplicateFieldName "b.Index" "FirstPage") ∧
    (∀ source ∈ (rejected .shelved).sources,
      source.rootCause = .duplicateFieldName "b.Index" "FirstPage" ∧ source.rootCause.IsCause) ∧
    Fault.shelved.message = String.join (Fault.shelvedLinks.map Fault.Link.text) ++
      Fault.message (.duplicateFieldName "b.Index" "FirstPage") ∧
    (rejected .shelved).message = "Registration failed: " ++ Fault.shelved.message := by
  have hroot : Fault.IsCause (.duplicateFieldName "b.Index" "FirstPage") := by decide
  have hlinks : Fault.shelved =
      .behind Fault.shelvedLinks (.duplicateFieldName "b.Index" "FirstPage") := rfl
  exact ⟨hroot, hlinks, readings_agree hroot hlinks⟩

example : (rejected .shelved).message =
    "Registration failed: b.Shelf.books: b.Book.pages: b.Page.index: " ++
      "duplicate field name 'FirstPage' in b.Index" := by
  decide

end Failure
end MessageRegistry
