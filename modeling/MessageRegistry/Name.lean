import MessageRegistry.Text.Uppercase

/-!
Names of types, fields and values. A fully-qualified name may be written with one leading dot; the
registry keeps it without. A field is offered to a program under another name: `nested_type` is
exported as `NestedType` and read through `GetNestedType`.
-/
namespace MessageRegistry.Name

def dropDot : List Char → List Char
  | '.' :: cs => cs
  | cs => cs

/-- The name without its optional leading dot. Only one dot is dropped. -/
def normalize (name : String) : String := String.ofList (dropDot name.toList)

def lastComponent (name : String) : String :=
  String.ofList (name.toList.reverse.takeWhile (· != '.')).reverse

def qualify (scope short : String) : String := scope ++ "." ++ short

/-- Whether `name` is declared directly in `package`, not in one nested deeper. -/
def isDirectlyIn (package name : String) : Bool :=
  match (package.toList ++ ['.']).isPrefixOf? name.toList with
  | some short => !short.isEmpty && !short.contains '.'
  | none => false

theorem toList_normalize (name : String) : (normalize name).toList = dropDot name.toList := by
  simp [normalize]

theorem toList_qualify (scope short : String) :
    (qualify scope short).toList = scope.toList ++ '.' :: short.toList := by
  simp [qualify]

/-- The last component of a full name lies inside the short name. -/
theorem lastComponent_qualify (scope short : String) :
    lastComponent (qualify scope short) = lastComponent short := by
  have htake : ∀ cs rest : List Char,
      (cs ++ '.' :: rest).takeWhile (· != '.') = cs.takeWhile (· != '.') := by
    intro cs rest
    induction cs with
    | nil => rfl
    | cons c cs ih => simp only [List.cons_append, List.takeWhile_cons, ih]
  rw [lastComponent, lastComponent, toList_qualify, List.reverse_append, List.reverse_cons,
    List.append_assoc, List.singleton_append, htake]

theorem lastComponent_eq_self {name : String} (h : '.' ∉ name.toList) :
    lastComponent name = name := by
  have hall : ∀ c ∈ name.toList.reverse, (c != '.') = true := by
    intro c hc
    rw [bne_iff_ne]
    rintro rfl
    exact h (List.mem_reverse.mp hc)
  have htake : (name.toList.reverse ++ []).takeWhile (· != '.') = name.toList.reverse ++ [] := by
    rw [List.takeWhile_append_of_pos hall]
    rfl
  rw [List.append_nil] at htake
  rw [lastComponent, htake, List.reverse_reverse, String.ofList_toList]

theorem dot_not_mem_lastComponent (name : String) : '.' ∉ (lastComponent name).toList := by
  intro h
  rw [lastComponent, String.toList_ofList, List.mem_reverse] at h
  have hall : ((name.toList.reverse.takeWhile (· != '.')).all (· != '.')) = true :=
    List.all_takeWhile
  simpa using List.all_eq_true.mp hall '.' h

theorem qualify_inj {scope other short last : String} (hs : '.' ∉ short.toList)
    (hl : '.' ∉ last.toList) (h : qualify scope short = qualify other last) :
    scope = other ∧ short = last := by
  have hlast : short = last := by
    calc short
        = lastComponent (qualify scope short) := by
          rw [lastComponent_qualify, lastComponent_eq_self hs]
      _ = last := by rw [h, lastComponent_qualify, lastComponent_eq_self hl]
  subst hlast
  rw [← String.toList_inj, toList_qualify, toList_qualify] at h
  exact ⟨String.toList_inj.mp (List.append_cancel_right h), rfl⟩

def isIdentifierStart (c : Char) : Bool := c.isAlpha || c == '_'

def isIdentifierPart (c : Char) : Bool := c.isAlphanum || c == '_'

/-- An ASCII letter or underscore, then ASCII letters, digits and underscores. -/
def isIdentifier (name : String) : Bool :=
  match name.toList with
  | [] => false
  | c :: cs => isIdentifierStart c && cs.all isIdentifierPart

theorem not_mem_of_isIdentifier {name : String} (h : isIdentifier name = true) :
    '.' ∉ name.toList := by
  intro hm
  unfold isIdentifier at h
  split at h
  · cases h
  · rename_i c cs hcs
    rw [Bool.and_eq_true, List.all_eq_true] at h
    rw [hcs, List.mem_cons] at hm
    rcases hm with rfl | hm
    · exact absurd h.1 (by decide)
    · exact absurd (h.2 '.' hm) (by decide)

def utf8Bytes (name : String) : List UInt8 := name.toUTF8.data.toList

/-- Names are ordered by the bytes of their UTF-8 form. -/
def precedes (a b : String) : Bool := decide (utf8Bytes a ≤ utf8Bytes b)

def sort (names : List String) : List String := names.mergeSort precedes

/-- Drops the underscores and capitalizes the first character of each part between them. The flag
says whether the next character starts a part. -/
def capitalizeParts : Bool → List Char → List Char
  | _, [] => []
  | atStart, c :: cs =>
    if c = '_' then capitalizeParts true cs
    else if atStart then Text.upper c ++ capitalizeParts false cs
    else c :: capitalizeParts false cs

/-- A leading underscore becomes an `X`, so that the result still starts with a capital. -/
def exportedChars (cs : List Char) : List Char :=
  (if cs.head? = some '_' then ['X'] else []) ++ capitalizeParts true cs

def exported (name : String) : String := String.ofList (exportedChars name.toList)

def getter (exportedName : String) : String := "Get" ++ exportedName

theorem toList_exported (name : String) : (exported name).toList = exportedChars name.toList := by
  simp [exported]

end MessageRegistry.Name
