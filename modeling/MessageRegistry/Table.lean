/-!
Tables that list their keys in the order of first insertion. Writing to a key that is present
replaces its value in place. The lemmas give look-up, keys and size after an insertion.
-/
namespace MessageRegistry

structure Table (κ α : Type) where
  entries : List (κ × α)
  deriving DecidableEq, Repr

namespace Table
variable {κ α : Type}

def empty : Table κ α := ⟨[]⟩

def keys (t : Table κ α) : List κ := t.entries.map Prod.fst

def values (t : Table κ α) : List α := t.entries.map Prod.snd

def size (t : Table κ α) : Nat := t.entries.length

theorem length_keys (t : Table κ α) : t.keys.length = t.size := List.length_map _

theorem keys_eq_map_values {t : Table κ α} {name : α → κ}
    (h : ∀ entry ∈ t.entries, entry.1 = name entry.2) : t.keys = t.values.map name := by
  rw [keys, values, List.map_map]
  exact List.map_congr_left h

variable [DecidableEq κ]

def find (key : κ) : List (κ × α) → Option α
  | [] => none
  | (k, a) :: rest => if k = key then some a else find key rest

def put (key : κ) (value : α) : List (κ × α) → List (κ × α)
  | [] => [(key, value)]
  | (k, a) :: rest => if k = key then (k, value) :: rest else (k, a) :: put key value rest

def get? (t : Table κ α) (key : κ) : Option α := find key t.entries

def contains (t : Table κ α) (key : κ) : Bool := (t.get? key).isSome

def insert (t : Table κ α) (key : κ) (value : α) : Table κ α := ⟨put key value t.entries⟩

theorem find_put (key other : κ) (value : α) (entries : List (κ × α)) :
    find other (put key value entries) =
      if key = other then some value else find other entries := by
  induction entries with
  | nil => rfl
  | cons entry rest ih =>
    obtain ⟨k, a⟩ := entry
    by_cases hk : k = key
    · subst hk; by_cases ho : k = other <;> simp [put, find, ho]
    · by_cases ho : k = other
      · subst ho; simp [put, find, hk, Ne.symm hk]
      · simp [put, find, hk, ho, ih]

@[simp] theorem get?_empty (key : κ) : (empty : Table κ α).get? key = none := rfl

theorem get?_insert (t : Table κ α) (key other : κ) (value : α) :
    (t.insert key value).get? other = if key = other then some value else t.get? other :=
  find_put key other value t.entries

@[simp] theorem get?_insert_self (t : Table κ α) (key : κ) (value : α) :
    (t.insert key value).get? key = some value := by
  simp [get?_insert]

theorem contains_insert (t : Table κ α) (key other : κ) (value : α) :
    (t.insert key value).contains other = (decide (key = other) || t.contains other) := by
  by_cases h : key = other <;> simp [contains, get?_insert, h]

theorem find_isSome (key : κ) (entries : List (κ × α)) :
    (find key entries).isSome = true ↔ key ∈ entries.map Prod.fst := by
  induction entries with
  | nil => simp [find]
  | cons entry rest ih =>
    obtain ⟨k, a⟩ := entry
    by_cases hk : k = key
    · simp [find, hk]
    · simp [find, hk, ih, Ne.symm hk]

theorem contains_iff (t : Table κ α) (key : κ) : t.contains key = true ↔ key ∈ t.keys :=
  find_isSome key t.entries

theorem not_contains_iff (t : Table κ α) (key : κ) :
    ¬ t.contains key = true ↔ t.get? key = none := by
  simp [contains]

theorem put_of_find_none (key : κ) (value : α) (entries : List (κ × α))
    (h : find key entries = none) : put key value entries = entries ++ [(key, value)] := by
  induction entries with
  | nil => rfl
  | cons entry rest ih =>
    obtain ⟨k, a⟩ := entry
    by_cases hk : k = key
    · simp [find, hk] at h
    · simp only [find, hk, if_false] at h
      simp [put, hk, ih h]

theorem keys_put_of_mem (key : κ) (value : α) (entries : List (κ × α))
    (h : key ∈ entries.map Prod.fst) :
    (put key value entries).map Prod.fst = entries.map Prod.fst := by
  induction entries with
  | nil => simp at h
  | cons entry rest ih =>
    obtain ⟨k, a⟩ := entry
    by_cases hk : k = key
    · simp [put, hk]
    · have hr : key ∈ rest.map Prod.fst := by simpa [Ne.symm hk] using h
      simp only [put, hk, if_false, List.map_cons, ih hr]

theorem mem_put {key : κ} {value : α} {entry : κ × α} {entries : List (κ × α)}
    (h : entry ∈ put key value entries) : entry = (key, value) ∨ entry ∈ entries := by
  induction entries with
  | nil => simpa [put] using h
  | cons first rest ih =>
    obtain ⟨k, a⟩ := first
    by_cases hk : k = key
    · subst hk
      simp only [put, if_true, List.mem_cons] at h
      rcases h with rfl | h
      · exact Or.inl rfl
      · exact Or.inr (List.mem_cons_of_mem _ h)
    · simp only [put, hk, if_false, List.mem_cons] at h
      rcases h with rfl | h
      · exact Or.inr List.mem_cons_self
      · exact (ih h).imp_right (List.mem_cons_of_mem _)

theorem mem_entries_insert {t : Table κ α} {key : κ} {value : α} {entry : κ × α}
    (h : entry ∈ (t.insert key value).entries) : entry = (key, value) ∨ entry ∈ t.entries :=
  mem_put h

theorem mem_values_insert {t : Table κ α} {key : κ} {value a : α}
    (h : a ∈ (t.insert key value).values) : a = value ∨ a ∈ t.values := by
  obtain ⟨entry, he, rfl⟩ := List.mem_map.mp h
  rcases mem_entries_insert he with rfl | he
  · exact Or.inl rfl
  · exact Or.inr (List.mem_map.mpr ⟨entry, he, rfl⟩)

/-- Where keys are read off the values, the values tell which keys are present. -/
theorem contains_iff_of_keyed {t : Table κ α} {name : α → κ}
    (h : ∀ entry ∈ t.entries, entry.1 = name entry.2) (key : κ) :
    t.contains key = true ↔ ∃ a ∈ t.values, name a = key := by
  rw [contains_iff]
  constructor
  · intro hk
    obtain ⟨entry, he, rfl⟩ := List.mem_map.mp hk
    exact ⟨entry.2, List.mem_map.mpr ⟨entry, he, rfl⟩, (h entry he).symm⟩
  · rintro ⟨a, ha, rfl⟩
    obtain ⟨entry, he, rfl⟩ := List.mem_map.mp ha
    exact List.mem_map.mpr ⟨entry, he, h entry he⟩

/-- A new entry comes last. -/
theorem entries_insert_of_not_contains {t : Table κ α} {key : κ} (h : t.contains key = false)
    (value : α) : (t.insert key value).entries = t.entries ++ [(key, value)] := by
  have hn : find key t.entries = none := by simpa [contains, get?] using h
  exact put_of_find_none key value t.entries hn

/-- A new key comes last; an old one keeps its place. -/
theorem keys_insert (t : Table κ α) (key : κ) (value : α) :
    (t.insert key value).keys = if t.contains key then t.keys else t.keys ++ [key] := by
  by_cases h : t.contains key = true
  · rw [if_pos h]
    exact keys_put_of_mem key value t.entries ((contains_iff t key).mp h)
  · rw [if_neg h, keys, entries_insert_of_not_contains (Bool.eq_false_iff.mpr h), List.map_append]
    rfl

theorem size_insert (t : Table κ α) (key : κ) (value : α) :
    (t.insert key value).size = if t.contains key then t.size else t.size + 1 := by
  have hk := congrArg List.length (keys_insert t key value)
  rw [length_keys] at hk
  split at hk <;> simp_all [length_keys]

/-- An insertion keeps the keys apart. -/
theorem nodup_keys_insert {t : Table κ α} (h : t.keys.Nodup) (key : κ) (value : α) :
    (t.insert key value).keys.Nodup := by
  rw [keys_insert]
  split
  · exact h
  · rename_i hn
    have hkey : key ∉ t.keys := fun hmem => hn ((contains_iff t key).mpr hmem)
    simpa [List.nodup_append] using ⟨h, fun a ha hak => hkey (hak ▸ ha)⟩

/-- Where each value is written under its own name, the last one of a name is found. -/
theorem get?_foldl_insert (name : α → κ) (values : List α) (t : Table κ α) (key : κ) :
    (values.foldl (fun t a => t.insert (name a) a) t).get? key =
      (values.reverse.find? fun a => name a = key).or (t.get? key) := by
  induction values generalizing t with
  | nil => rfl
  | cons a values ih =>
    rw [List.foldl_cons, ih, List.reverse_cons, List.find?_append, Option.or_assoc, get?_insert]
    by_cases hn : name a = key <;> simp [hn]

end Table
end MessageRegistry
