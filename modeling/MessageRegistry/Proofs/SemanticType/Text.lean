import Mathlib.Data.List.Nodup
import MessageRegistry.SemanticType

/-!
Reading the text of a semantic type. Main statement: types with one text are one type, as long as
messages are named by dotted words and none by a word that stands for another type.

A text starts with a word, and no parenthesis or comma is part of a word. So the word is told from
what is behind it, and what is behind it from what follows the text.
-/
namespace MessageRegistry.SemanticType

def isWordPart (c : Char) : Bool := c.isAlphanum || c == '_' || c == '.'

/-- The words that stand for types other than messages. -/
def leafWords : List String :=
  ["dyn", "null_type", "bool", "int", "uint", "double", "string", "bytes", "any",
    "google.protobuf.Timestamp", "google.protobuf.Duration"]

/-- A dotted word that stands for no other type. -/
structure IsMessageWord (name : String) : Prop where
  parts : ∀ c ∈ name.toList, isWordPart c = true
  not_leaf : name ∉ leafWords

/-- At whatever depth a message occurs in the type, its name can be told from other words. -/
def Readable (type : SemanticType) : Prop := ∀ name, type.Mentions name → IsMessageWord name

@[simp] theorem readable_message {name : String} :
    (message name).Readable ↔ IsMessageWord name := by
  simp [Readable, Mentions]

@[simp] theorem readable_list {element : SemanticType} :
    (list element).Readable ↔ element.Readable := Iff.rfl

@[simp] theorem readable_map {key value : SemanticType} :
    (map key value).Readable ↔ key.Readable ∧ value.Readable := by
  simp [Readable, Mentions, or_imp, forall_and]

@[simp] theorem readable_primitive (kind : Primitive) : (primitive kind).Readable :=
  fun _ h => h.elim

section Words
variable {a b type : SemanticType} {r s : List Char}

def word : SemanticType → String
  | wrapper _ => "wrapper"
  | list _ => "list"
  | map _ _ => "map"
  | leaf => leaf.text

def behind : SemanticType → List Char
  | wrapper kind => '(' :: (kind.text.toList ++ [')'])
  | list element => '(' :: (element.text.toList ++ [')'])
  | map key value => '(' :: (key.text.toList ++ ',' :: ' ' :: (value.text.toList ++ [')']))
  | _ => []

theorem toList_text (type : SemanticType) : type.text.toList = type.word.toList ++ type.behind := by
  cases type <;> simp [text, word, behind]

theorem isWordPart_of_mem_word (h : type.Readable) :
    ∀ c ∈ type.word.toList, isWordPart c = true := by
  cases type with
  | message name => exact (readable_message.mp h).parts
  | primitive kind => cases kind <;> simp [word, text, Primitive.text, isWordPart]
  | special kind => cases kind <;> simp [word, text, SpecialType.text, isWordPart]
  | dyn | null => simp [word, text, isWordPart]
  | wrapper _ | list _ | map _ _ => simp [word, isWordPart]

/-- What follows a text does not look like a part of it. -/
def Ends (r : List Char) : Prop := ∀ c ∈ r.head?, c = ')' ∨ c = ','

theorem not_isWordPart_of_ends (hr : Ends r) :
    ∀ c ∈ (type.behind ++ r).head?, isWordPart c = false := by
  have hend : ∀ c ∈ r.head?, isWordPart c = false := by
    intro c hc
    rcases hr c hc with rfl | rfl <;> decide
  cases type with
  | wrapper _ | list _ | map _ _ =>
    intro c hc
    obtain rfl : '(' = c := by simpa [behind] using hc
    decide
  | _ => exact hend

/-- Words are told from what is behind them by the first character that is no part of a word. -/
theorem append_inj_of_isWordPart {v w : List Char} (hv : ∀ c ∈ v, isWordPart c = true)
    (hw : ∀ c ∈ w, isWordPart c = true) (hr : ∀ c ∈ r.head?, isWordPart c = false)
    (hs : ∀ c ∈ s.head?, isWordPart c = false) (h : v ++ r = w ++ s) : v = w ∧ r = s := by
  induction v generalizing w with
  | nil =>
    cases w with
    | nil => exact ⟨rfl, h⟩
    | cons c w =>
      have hc := hr c (by simp [show r = c :: (w ++ s) from h])
      simp [hw c] at hc
  | cons c v ih =>
    obtain ⟨hc, hv⟩ := List.forall_mem_cons.mp hv
    cases w with
    | nil =>
      have hno := hs c (by simp [← show c :: (v ++ r) = s from h])
      simp [hc] at hno
    | cons d w =>
      obtain ⟨rfl, htail⟩ := List.cons.inj h
      obtain ⟨rfl, hrest⟩ := ih hv (List.forall_mem_cons.mp hw).2 htail
      exact ⟨rfl, hrest⟩

theorem word_eq_and_behind_append_eq (ha : a.Readable) (hb : b.Readable) (hr : Ends r)
    (hs : Ends s) (h : a.text.toList ++ r = b.text.toList ++ s) :
    a.word = b.word ∧ a.behind ++ r = b.behind ++ s := by
  rw [toList_text, toList_text, List.append_assoc, List.append_assoc] at h
  obtain ⟨hword, hbehind⟩ := append_inj_of_isWordPart (isWordPart_of_mem_word ha)
    (isWordPart_of_mem_word hb) (not_isWordPart_of_ends hr) (not_isWordPart_of_ends hs) h
  exact ⟨String.toList_inj.mp hword, hbehind⟩

end Words

section Leaves
variable {a b type : SemanticType} {r s : List Char}

def isLeaf : SemanticType → Bool
  | wrapper _ | list _ | map _ _ => false
  | _ => true

def leaves : List SemanticType :=
  [dyn, null, primitive .bool, primitive .int64, primitive .uint64, primitive .double,
    primitive .string, primitive .bytes, special .any, special .timestamp, special .duration]

theorem map_text_leaves : leaves.map text = leafWords := rfl

theorem mem_leaves_or (h : type.isLeaf = true) :
    type ∈ leaves ∨ ∃ name, type = message name := by
  cases type with
  | message name => exact Or.inr ⟨name, rfl⟩
  | primitive kind | special kind => cases kind <;> exact Or.inl (by decide)
  | dyn | null => exact Or.inl (by decide)
  | wrapper _ | list _ | map _ _ => cases h

theorem text_ne_of_mem_leaves {name : String} (h : (message name).Readable)
    (hl : type ∈ leaves) : type.text ≠ name := by
  rintro rfl
  apply (readable_message.mp h).not_leaf
  rw [← map_text_leaves]
  exact List.mem_map_of_mem hl

theorem eq_of_isLeaf (ha : a.Readable) (hb : b.Readable) (hal : a.isLeaf = true)
    (hbl : b.isLeaf = true) (h : a.text = b.text) : a = b := by
  rcases mem_leaves_or hal with hal | ⟨name, rfl⟩
  · rcases mem_leaves_or hbl with hbl | ⟨other, rfl⟩
    · have hnodup : (leaves.map text).Nodup := by
        rw [map_text_leaves]
        decide
      exact List.inj_on_of_nodup_map hnodup hal hbl h
    · exact absurd h (text_ne_of_mem_leaves hb hal)
  · rcases mem_leaves_or hbl with hbl | ⟨other, rfl⟩
    · exact absurd h.symm (text_ne_of_mem_leaves ha hbl)
    · exact congrArg message h

theorem word_eq_text (h : type.isLeaf = true) : type.word = type.text := by
  cases type with
  | wrapper _ | list _ | map _ _ => cases h
  | _ => rfl

theorem behind_eq_nil (h : type.isLeaf = true) : type.behind = [] := by
  cases type with
  | wrapper _ | list _ | map _ _ => cases h
  | _ => rfl

end Leaves

section Reading
variable {a b type : SemanticType} {r s : List Char}

theorem ends_nil : Ends [] := by simp [Ends]

theorem ends_parenthesis (r : List Char) : Ends (')' :: r) := by simp [Ends]

theorem ends_comma (r : List Char) : Ends (',' :: r) := by simp [Ends]

theorem behind_append_ne_of_isLeaf (h : type.isLeaf = true) (hr : Ends r) (cs : List Char) :
    type.behind ++ r ≠ '(' :: cs := by
  rw [behind_eq_nil h, List.nil_append]
  rintro rfl
  rcases hr '(' rfl with h | h <;> cases h

/-- Two types whose texts, with what follows them, are the same: they are one leaf, or composed in
one way of parts to which this applies again. -/
inductive Aligned (r s : List Char) : SemanticType → SemanticType → Prop
  | leaf {type : SemanticType} (hl : type.isLeaf = true) (h : r = s) : Aligned r s type type
  | wrapper {kind other : Primitive}
      (h : kind.text.toList ++ ')' :: r = other.text.toList ++ ')' :: s) :
      Aligned r s (wrapper kind) (wrapper other)
  | list {element other : SemanticType}
      (h : element.text.toList ++ ')' :: r = other.text.toList ++ ')' :: s) :
      Aligned r s (list element) (list other)
  | map {key otherKey value otherValue : SemanticType}
      (h : key.text.toList ++ ',' :: ' ' :: (value.text.toList ++ ')' :: r) =
        otherKey.text.toList ++ ',' :: ' ' :: (otherValue.text.toList ++ ')' :: s)) :
      Aligned r s (map key value) (map otherKey otherValue)

theorem aligned_of_isLeaf (ha : a.Readable) (hb : b.Readable) (hl : a.isLeaf = true)
    (hr : Ends r) (hword : a.word = b.word) (hbehind : a.behind ++ r = b.behind ++ s) :
    Aligned r s a b := by
  cases b with
  | wrapper _ | list _ | map _ _ => exact absurd hbehind (behind_append_ne_of_isLeaf hl hr _)
  | dyn | null | primitive _ | special _ | message _ =>
    rw [word_eq_text hl] at hword
    rw [behind_eq_nil hl] at hbehind
    obtain rfl := eq_of_isLeaf ha hb hl rfl hword
    exact .leaf hl hbehind

theorem aligned_of_append_eq (ha : a.Readable) (hb : b.Readable) (hr : Ends r) (hs : Ends s)
    (h : a.text.toList ++ r = b.text.toList ++ s) : Aligned r s a b := by
  obtain ⟨hword, hbehind⟩ := word_eq_and_behind_append_eq ha hb hr hs h
  cases a with
  | dyn | null | primitive _ | special _ | message _ =>
    exact aligned_of_isLeaf ha hb rfl hr hword hbehind
  | wrapper kind =>
    cases b with
    | wrapper other => exact .wrapper (by simpa [behind] using hbehind)
    | list _ | map _ _ => simp [word] at hword
    | dyn | null | primitive _ | special _ | message _ =>
      exact absurd hbehind.symm (behind_append_ne_of_isLeaf rfl hs _)
  | list element =>
    cases b with
    | list other => exact .list (by simpa [behind] using hbehind)
    | wrapper _ | map _ _ => simp [word] at hword
    | dyn | null | primitive _ | special _ | message _ =>
      exact absurd hbehind.symm (behind_append_ne_of_isLeaf rfl hs _)
  | map key value =>
    cases b with
    | map otherKey otherValue => exact .map (by simpa [behind] using hbehind)
    | wrapper _ | list _ => simp [word] at hword
    | dyn | null | primitive _ | special _ | message _ =>
      exact absurd hbehind.symm (behind_append_ne_of_isLeaf rfl hs _)

/-- In front of whatever may follow it, a text tells both the type and where it ends. -/
theorem text_append_inj (ha : a.Readable) (hb : b.Readable) (hr : Ends r) (hs : Ends s)
    (h : a.text.toList ++ r = b.text.toList ++ s) : a = b ∧ r = s := by
  induction a generalizing b r s with
  | dyn | null | primitive _ | special _ | message _ =>
    cases aligned_of_append_eq ha hb hr hs h with
    | leaf _ hrest => exact ⟨rfl, hrest⟩
  | wrapper kind =>
    cases aligned_of_append_eq ha hb hr hs h with
    | leaf hl => cases hl
    | wrapper hkind =>
      -- between the parentheses stands the text of a primitive
      cases aligned_of_append_eq (readable_primitive _) (readable_primitive _) (ends_parenthesis r)
        (ends_parenthesis s) (a := .primitive kind) hkind with
      | leaf _ hrest => exact ⟨rfl, (List.cons.inj hrest).2⟩
  | list element ih =>
    cases aligned_of_append_eq ha hb hr hs h with
    | leaf hl => cases hl
    | list helement =>
      obtain ⟨rfl, hrest⟩ := ih (readable_list.mp ha) (readable_list.mp hb) (ends_parenthesis r)
        (ends_parenthesis s) helement
      exact ⟨rfl, (List.cons.inj hrest).2⟩
  | map key value ihk ihv =>
    cases aligned_of_append_eq ha hb hr hs h with
    | leaf hl => cases hl
    | map hentry =>
      obtain ⟨hak, hav⟩ := readable_map.mp ha
      obtain ⟨hbk, hbv⟩ := readable_map.mp hb
      obtain ⟨rfl, hvalue⟩ := ihk hak hbk (ends_comma _) (ends_comma _) hentry
      simp only [List.cons.injEq, true_and] at hvalue
      obtain ⟨rfl, hrest⟩ := ihv hav hbv (ends_parenthesis r) (ends_parenthesis s) hvalue
      exact ⟨rfl, (List.cons.inj hrest).2⟩

/-- Types of any depth are told by their texts. -/
theorem text_inj (ha : a.Readable) (hb : b.Readable) : a.text = b.text ↔ a = b := by
  constructor
  · intro h
    have happend : a.text.toList ++ [] = b.text.toList ++ [] := by rw [h]
    exact (text_append_inj ha hb ends_nil ends_nil happend).1
  · rintro rfl
    rfl

/-- Messages may be called `list` and `map`: it can be seen to which map a comma belongs. -/
theorem text_inj_nested :
    (map (map (message "list") (message "map")) (message "a.B")).text ≠
      (map (message "list") (map (message "map") (message "a.B"))).text := by
  have hlist : IsMessageWord "list" := ⟨by simp [isWordPart], by decide⟩
  have hmap : IsMessageWord "map" := ⟨by simp [isWordPart], by decide⟩
  have hname : IsMessageWord "a.B" := ⟨by simp [isWordPart], by decide⟩
  rw [Ne, text_inj (by simp [hlist, hmap, hname]) (by simp [hlist, hmap, hname])]
  decide

end Reading
end MessageRegistry.SemanticType
