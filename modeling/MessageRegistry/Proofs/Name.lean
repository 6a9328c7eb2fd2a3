import MessageRegistry.Name
import MessageRegistry.Proofs.General
import MessageRegistry.Proofs.Text.Uppercase

/-!
Sorted, exported and identifying names. Main statements: names that differ are sorted into strictly
increasing order; an exported name is its own exported name, as it has no underscore left to drop
and starts with a capital, which stays as it is; the check of identifiers on characters is the same
as one on the bytes of a name, and an identifier is exported as one that starts with a capital and
has only letters and digits behind it.
-/
namespace MessageRegistry.Name
open Text

section Order

theorem utf8Bytes_inj {a b : String} : utf8Bytes a = utf8Bytes b ↔ a = b := by
  constructor
  · intro h
    apply String.toByteArray_inj.mp
    exact ByteArray.ext (Array.toList_inj.mp h)
  · rintro rfl
    rfl

theorem precedes_trans (a b c : String) (hab : precedes a b = true) (hbc : precedes b c = true) :
    precedes a c = true := by
  simp only [precedes, decide_eq_true_eq] at hab hbc ⊢
  exact List.le_trans hab hbc

theorem precedes_total (a b : String) : (precedes a b || precedes b a) = true := by
  simp only [precedes, Bool.or_eq_true, decide_eq_true_eq]
  exact List.le_total _ _

theorem pairwise_sort (names : List String) :
    (sort names).Pairwise fun a b => utf8Bytes a ≤ utf8Bytes b := by
  have h : (sort names).Pairwise fun a b => precedes a b = true :=
    List.pairwise_mergeSort precedes_trans precedes_total names
  exact h.imp fun hab => of_decide_eq_true hab

theorem nodup_sort {names : List String} (h : names.Nodup) : (sort names).Nodup :=
  (List.mergeSort_perm names precedes).nodup_iff.mpr h

theorem length_sort (names : List String) : (sort names).length = names.length :=
  List.length_mergeSort names

/-- Names with the same bytes are one name, so that sorted names only grow if none occurs twice. -/
theorem pairwise_lt_sort {names : List String} (h : names.Nodup) :
    (sort names).Pairwise fun a b => utf8Bytes a < utf8Bytes b := by
  refine (pairwise_sort names).imp₂ (fun a b hle hne => ?_) (nodup_sort h)
  apply List.not_le.mp
  intro hge
  exact hne (utf8Bytes_inj.mp (List.le_antisymm hle hge))

end Order

section NormalForm
variable {atStart : Bool} {cs : List Char}

theorem underscore_not_mem_capitalizeParts (atStart : Bool) (cs : List Char) :
    '_' ∉ capitalizeParts atStart cs := by
  induction cs generalizing atStart with
  | nil => simp [capitalizeParts]
  | cons c cs ih =>
    by_cases hc : c = '_'
    · simpa [capitalizeParts, hc] using ih true
    · cases atStart with
      | true => simp [capitalizeParts, hc, underscore_not_mem_upper hc, ih]
      | false => simp [capitalizeParts, hc, Ne.symm hc, ih]

/-- Inside a part nothing is capitalized. -/
theorem capitalizeParts_false (h : '_' ∉ cs) : capitalizeParts false cs = cs := by
  induction cs with
  | nil => rfl
  | cons c cs ih =>
    rw [List.mem_cons, not_or] at h
    simp [capitalizeParts, Ne.symm h.1, ih h.2]

theorem capitalizeParts_true {first : Char} (hfirst : upper first = [first])
    (h : '_' ∉ first :: cs) : capitalizeParts true (first :: cs) = first :: cs := by
  rw [List.mem_cons, not_or] at h
  simp [capitalizeParts, Ne.symm h.1, hfirst, capitalizeParts_false h.2]

theorem capitalizeParts_capitalizeParts (cs : List Char) :
    capitalizeParts true (capitalizeParts true cs) = capitalizeParts true cs := by
  induction cs with
  | nil => rfl
  | cons c cs ih =>
    by_cases hc : c = '_'
    · simpa [capitalizeParts, hc] using ih
    · have hnot := underscore_not_mem_capitalizeParts true (c :: cs)
      obtain ⟨first, rest, hupper, hfirst⟩ := exists_upper_eq_cons c
      have hparts :
          capitalizeParts true (c :: cs) = first :: (rest ++ capitalizeParts false cs) := by
        simp [capitalizeParts, hc, hupper]
      rw [hparts] at hnot ⊢
      exact capitalizeParts_true hfirst hnot

theorem underscore_not_mem_exportedChars (cs : List Char) : '_' ∉ exportedChars cs := by
  have hx : '_' ∉ if cs.head? = some '_' then ['X'] else [] := by
    split <;> simp
  rw [exportedChars, List.mem_append, not_or]
  exact ⟨hx, underscore_not_mem_capitalizeParts true cs⟩

theorem exportedChars_exportedChars (cs : List Char) :
    exportedChars (exportedChars cs) = exportedChars cs := by
  have hnot := underscore_not_mem_exportedChars cs
  have hhead : (exportedChars cs).head? ≠ some '_' := fun h => hnot (List.mem_of_head? h)
  rw [exportedChars, if_neg hhead, List.nil_append]
  unfold exportedChars at hnot ⊢
  split
  · rename_i hlead
    rw [if_pos hlead] at hnot
    exact capitalizeParts_true (by decide +kernel) hnot
  · exact capitalizeParts_capitalizeParts cs

theorem exported_exported (name : String) : exported (exported name) = exported name := by
  rw [← String.toList_inj, toList_exported, toList_exported, exportedChars_exportedChars]

/-- Capitals do not vanish, and a leading underscore leaves an `X` behind. -/
theorem exportedChars_eq_nil_iff : exportedChars cs = [] ↔ cs = [] := by
  constructor
  · intro h
    cases cs with
    | nil => rfl
    | cons c cs =>
      by_cases hc : c = '_'
      · simp [exportedChars, hc] at h
      · obtain ⟨first, rest, hupper, _⟩ := exists_upper_eq_cons c
        simp [exportedChars, capitalizeParts, hc, hupper] at h
  · rintro rfl
    rfl

theorem exported_eq_empty_iff {name : String} : exported name = "" ↔ name = "" := by
  rw [← String.toList_eq_nil_iff, ← String.toList_eq_nil_iff, toList_exported,
    exportedChars_eq_nil_iff]

/-- Exporting brings every name, of whatever characters, into a form that it leaves as it is. -/
theorem exported_normal_form (name : String) :
    '_' ∉ (exported name).toList ∧ exported (exported name) = exported name ∧
      (exported name = "" ↔ name = "") := by
  refine ⟨?_, exported_exported name, exported_eq_empty_iff⟩
  rw [toList_exported]
  exact underscore_not_mem_exportedChars name.toList

end NormalForm

def IsCapital (c : Char) : Prop := 'A' ≤ c ∧ c ≤ 'Z'

def IsLetter (c : Char) : Prop := IsCapital c ∨ 'a' ≤ c ∧ c ≤ 'z'

def IsDigit (c : Char) : Prop := '0' ≤ c ∧ c ≤ '9'

/-- One character of the first kind, and then any number of the second kind. -/
def Matches (first rest : Char → Prop) : List Char → Prop
  | [] => False
  | c :: cs => first c ∧ ∀ d ∈ cs, rest d

/-- The pattern `[A-Za-z_][A-Za-z0-9_]*`. -/
def MatchesIdentifier (name : String) : Prop :=
  Matches (fun c => IsLetter c ∨ c = '_') (fun c => IsLetter c ∨ IsDigit c ∨ c = '_') name.toList

/-- The pattern `[A-Z][A-Za-z0-9]*`. -/
def MatchesExported (name : String) : Prop :=
  Matches IsCapital (fun c => IsLetter c ∨ IsDigit c) name.toList

variable {c : Char} {cs : List Char} {name : String}

section Check

theorem isAlpha_iff : c.isAlpha = true ↔ IsLetter c := by
  have hupper : c.isUpper = true ↔ IsCapital c := decide_eq_true_iff
  have hlower : c.isLower = true ↔ 'a' ≤ c ∧ c ≤ 'z' := by
    rw [show c.isLower = (decide ('a' ≤ c) && decide (c ≤ 'z')) from rfl]
    simp
  rw [show c.isAlpha = (c.isUpper || c.isLower) from rfl, Bool.or_eq_true, hupper, hlower]
  rfl

theorem isDigit_iff : c.isDigit = true ↔ IsDigit c := Char.isDigit_iff_toNat

theorem isIdentifierStart_iff : isIdentifierStart c = true ↔ IsLetter c ∨ c = '_' := by
  simp [isIdentifierStart, isAlpha_iff]

theorem isIdentifierPart_iff : isIdentifierPart c = true ↔ IsLetter c ∨ IsDigit c ∨ c = '_' := by
  rw [isIdentifierPart, show c.isAlphanum = (c.isAlpha || c.isDigit) from rfl]
  simp [isAlpha_iff, isDigit_iff, or_assoc]

theorem isIdentifier_iff : isIdentifier name = true ↔ MatchesIdentifier name := by
  unfold isIdentifier MatchesIdentifier
  cases name.toList with
  | nil => simp [Matches]
  | cons c cs => simp [Matches, isIdentifierStart_iff, isIdentifierPart_iff]

theorem toNat_lt_of_part (h : IsLetter c ∨ IsDigit c ∨ c = '_') : c.toNat < 128 := by
  simp only [IsLetter, IsCapital, IsDigit, Char.le_def, UInt32.le_iff_toNat_le] at h
  rcases h with (h | h) | h | rfl
  · exact Nat.lt_of_le_of_lt h.2 (by decide)
  · exact Nat.lt_of_le_of_lt h.2 (by decide)
  · exact Nat.lt_of_le_of_lt h.2 (by decide)
  · decide

theorem MatchesIdentifier.part (h : MatchesIdentifier name) :
    ∀ c ∈ name.toList, IsLetter c ∨ IsDigit c ∨ c = '_' := by
  unfold MatchesIdentifier at h
  intro d hd
  cases hcs : name.toList with
  | nil => simp [hcs] at hd
  | cons c cs =>
    rw [hcs] at h hd
    rcases List.mem_cons.mp hd with rfl | hd
    · exact h.1.imp_right Or.inr
    · exact h.2 d hd

end Check

section Bytes

def isLetterByte (b : UInt8) : Bool := (0x41 ≤ b && b ≤ 0x5A) || (0x61 ≤ b && b ≤ 0x7A)

def isDigitByte (b : UInt8) : Bool := 0x30 ≤ b && b ≤ 0x39

def isStartByte (b : UInt8) : Bool := isLetterByte b || b == 0x5F

def isPartByte (b : UInt8) : Bool := isLetterByte b || isDigitByte b || b == 0x5F

def isIdentifierBytes : List UInt8 → Bool
  | [] => false
  | b :: bs => isStartByte b && bs.all isPartByte

theorem utf8Bytes_eq_flatMap (name : String) :
    utf8Bytes name = name.toList.flatMap String.utf8EncodeChar := by
  rw [utf8Bytes, String.toUTF8_eq_toByteArray, ← String.ofList_toList (s := name),
    String.toByteArray_ofList, List.utf8Encode, List.data_toByteArray, String.toList_ofList]

theorem not_isPartByte {b : UInt8} (hb : 128 ≤ b.toNat) : isPartByte b = false := by
  grind [isPartByte, isLetterByte, isDigitByte, UInt8.le_iff_toNat_le, ← UInt8.toNat_inj]

theorem not_isStartByte {b : UInt8} (hb : 128 ≤ b.toNat) : isStartByte b = false := by
  grind [isStartByte, isLetterByte, UInt8.le_iff_toNat_le, ← UInt8.toNat_inj]

theorem isLetterByte_iff (hc : c.toNat < 128) :
    isLetterByte (UInt8.ofNat c.toNat) = true ↔ IsLetter c := by
  simp [isLetterByte, IsLetter, IsCapital, UInt8.le_iff_toNat_le, toNat_ofNat_of_ascii hc,
    Char.le_def, UInt32.le_iff_toNat_le]

theorem isDigitByte_iff (hc : c.toNat < 128) :
    isDigitByte (UInt8.ofNat c.toNat) = true ↔ IsDigit c := by
  simp [isDigitByte, IsDigit, UInt8.le_iff_toNat_le, toNat_ofNat_of_ascii hc, Char.le_def,
    UInt32.le_iff_toNat_le]

theorem ofNat_eq_underscore_iff (hc : c.toNat < 128) :
    UInt8.ofNat c.toNat = 0x5F ↔ c = '_' := by
  rw [← UInt8.toNat_inj, toNat_ofNat_of_ascii hc, ← Char.toNat_inj]
  rfl

theorem isStartByte_of_ascii (hc : c.toNat < 128) :
    isStartByte (UInt8.ofNat c.toNat) = isIdentifierStart c := by
  rw [Bool.eq_iff_iff, isIdentifierStart_iff]
  simp [isStartByte, isLetterByte_iff hc, ofNat_eq_underscore_iff hc]

theorem isPartByte_of_ascii (hc : c.toNat < 128) :
    isPartByte (UInt8.ofNat c.toNat) = isIdentifierPart c := by
  rw [Bool.eq_iff_iff, isIdentifierPart_iff]
  simp [isPartByte, isLetterByte_iff hc, isDigitByte_iff hc, ofNat_eq_underscore_iff hc, or_assoc]

theorem all_isPartByte_utf8EncodeChar (c : Char) :
    (String.utf8EncodeChar c).all isPartByte = isIdentifierPart c := by
  by_cases hc : c.toNat < 128
  · simp [utf8EncodeChar_of_ascii hc, isPartByte_of_ascii hc]
  · have hno : isIdentifierPart c = false :=
      Bool.eq_false_iff.mpr fun h => hc (toNat_lt_of_part (isIdentifierPart_iff.mp h))
    obtain ⟨b, bs, henc, hb⟩ := exists_utf8EncodeChar_eq_cons hc
    simp [henc, not_isPartByte hb, hno]

/-- No character beyond ASCII passes in parts: its bytes are all refused. -/
theorem isIdentifierBytes_utf8Bytes (name : String) :
    isIdentifierBytes (utf8Bytes name) = isIdentifier name := by
  rw [utf8Bytes_eq_flatMap]
  unfold isIdentifier
  cases name.toList with
  | nil => rfl
  | cons c cs =>
    have hrest : (cs.flatMap String.utf8EncodeChar).all isPartByte = cs.all isIdentifierPart := by
      simp only [List.all_flatMap, all_isPartByte_utf8EncodeChar]
    by_cases hc : c.toNat < 128
    · simp [utf8EncodeChar_of_ascii hc, isIdentifierBytes, isStartByte_of_ascii hc, hrest]
    · have hno : isIdentifierStart c = false := Bool.eq_false_iff.mpr fun h =>
        hc (toNat_lt_of_part ((isIdentifierStart_iff.mp h).imp_right Or.inr))
      obtain ⟨b, bs, henc, hb⟩ := exists_utf8EncodeChar_eq_cons hc
      simp [henc, isIdentifierBytes, not_isStartByte hb, hno]

/-- A name that passes is an identifier by its characters as well as by its bytes. -/
theorem matches_and_isIdentifierBytes (h : isIdentifier name = true) :
    MatchesIdentifier name ∧ isIdentifierBytes (utf8Bytes name) = true :=
  ⟨isIdentifier_iff.mp h, (isIdentifierBytes_utf8Bytes name).trans h⟩

end Bytes

section Exported

/-- The first character of a part as a capital, and the others as they are. -/
def capitalize : List Char → List Char
  | [] => []
  | c :: cs => upper c ++ cs

/-- The part that a list of characters starts in is capitalized if it starts there, and the parts
behind the underscores always. -/
theorem exists_splitOn_eq_cons (cs : List Char) : ∃ part parts, cs.splitOn '_' = part :: parts ∧
    capitalizeParts true cs = capitalize part ++ parts.flatMap capitalize ∧
    capitalizeParts false cs = part ++ parts.flatMap capitalize := by
  induction cs with
  | nil => exact ⟨[], [], rfl, rfl, rfl⟩
  | cons c cs ih =>
    obtain ⟨part, parts, hsplit, htrue, hfalse⟩ := ih
    by_cases hc : c = '_'
    · refine ⟨[], part :: parts, ?_, ?_, ?_⟩ <;>
        simp [List.splitOn_cons_eq_if_modifyHead, hc, hsplit, capitalizeParts, htrue, capitalize]
    · refine ⟨c :: part, parts, ?_, ?_, ?_⟩ <;>
        simp [List.splitOn_cons_eq_if_modifyHead, hc, hsplit, capitalizeParts, hfalse, capitalize]

theorem capitalizeParts_eq_flatMap (cs : List Char) :
    capitalizeParts true cs = (cs.splitOn '_').flatMap capitalize := by
  obtain ⟨part, parts, hsplit, htrue, _⟩ := exists_splitOn_eq_cons cs
  rw [hsplit, List.flatMap_cons, htrue]

theorem capitalize_of_ascii {part : List Char} (h : ∀ c ∈ part, c.toNat < 128) :
    capitalize part = part.modifyHead Char.toUpper := by
  cases part with
  | nil => rfl
  | cons c cs => simp [capitalize, upper_of_ascii (h c List.mem_cons_self)]

/-- An identifier is exported without its underscores, with an ASCII capital for the first letter of
each part between them, and with an `X` in front if it starts with an underscore. -/
theorem toList_exported_of_matches (h : MatchesIdentifier name) :
    (exported name).toList = (if name.toList.head? = some '_' then ['X'] else []) ++
      (name.toList.splitOn '_').flatMap (·.modifyHead Char.toUpper) := by
  have hparts : ∀ part ∈ name.toList.splitOn '_',
      capitalize part = part.modifyHead Char.toUpper := by
    intro part hp
    apply capitalize_of_ascii
    intro c hc
    exact toNat_lt_of_part (h.part c (mem_of_mem_splitOn hp hc))
  rw [toList_exported, exportedChars, capitalizeParts_eq_flatMap, List.flatMap_congr hparts]

theorem toUpper_of_isDigit (h : IsDigit c) : c.toUpper = c :=
  toUpper_of_lt (Nat.lt_of_le_of_lt h.2 (by decide))

theorem isCapital_toUpper (h : IsLetter c) : IsCapital c.toUpper := by
  rcases h with hcapital | hsmall
  · rwa [toUpper_of_lt (Nat.lt_of_le_of_lt hcapital.2 (by decide))]
  · have hval : 'a'.val ≤ c.val ∧ c.val ≤ 'z'.val := hsmall
    unfold Char.toUpper
    rw [dif_pos hval]
    simp only [UInt32.le_iff_toNat_le] at hval
    simp only [IsCapital, Char.le_def, UInt32.le_iff_toNat_le, UInt32.toNat_add]
    simp at hval ⊢
    omega

theorem mem_capitalizeParts (h : ∀ c ∈ cs, IsLetter c ∨ IsDigit c ∨ c = '_') (atStart : Bool) :
    ∀ d ∈ capitalizeParts atStart cs, IsLetter d ∨ IsDigit d := by
  induction cs generalizing atStart with
  | nil => simp [capitalizeParts]
  | cons c cs ih =>
    obtain ⟨hc, hcs⟩ := List.forall_mem_cons.mp h
    by_cases hu : c = '_'
    · simpa [capitalizeParts, hu] using ih hcs true
    · have hkept : IsLetter c ∨ IsDigit c := by simpa [hu] using hc
      cases atStart with
      | false => simpa [capitalizeParts, hu] using ⟨hkept, ih hcs false⟩
      | true =>
        have hupper : IsLetter c.toUpper ∨ IsDigit c.toUpper := by
          rcases hkept with hletter | hdigit
          · exact Or.inl (Or.inl (isCapital_toUpper hletter))
          · exact Or.inr ((toUpper_of_isDigit hdigit).symm ▸ hdigit)
        simpa [capitalizeParts, hu, upper_of_ascii (toNat_lt_of_part hc)] using
          ⟨hupper, ih hcs false⟩

/-- An identifier is exported as an identifier that has no underscores and starts with a capital. -/
theorem MatchesIdentifier.exported (h : MatchesIdentifier name) :
    MatchesExported (Name.exported name) := by
  have hpart := h.part
  unfold MatchesIdentifier at h
  unfold MatchesExported
  rw [toList_exported]
  cases hcs : name.toList with
  | nil => simp [hcs, Matches] at h
  | cons c cs =>
    rw [hcs] at h hpart
    by_cases hu : c = '_'
    · subst hu
      have hrest := mem_capitalizeParts hpart true
      exact ⟨⟨by decide, by decide⟩, by simpa [exportedChars] using hrest⟩
    · have hletter : IsLetter c := by simpa [hu] using h.1
      have hupper := upper_of_ascii (toNat_lt_of_part (Or.inl hletter))
      have hrest := mem_capitalizeParts h.2 false
      simpa [exportedChars, capitalizeParts, hu, hupper, Matches] using
        ⟨isCapital_toUpper hletter, hrest⟩

end Exported

end MessageRegistry.Name
