import Mathlib.Data.List.Count
import Mathlib.Data.List.Cycle
import MessageRegistry.Table

/-!
Facts about lists, cycles, tables and characters that hold apart from registries: what a key singles
out in a list, the paths and cycles of a relation, tables with the same keys, and the characters of
ASCII with their bytes.
-/
namespace MessageRegistry

section Logic

/-- An equivalence that holds outside `W` is kept if only `W` adds to one side of it. -/
theorem or_iff_of_gain {W A B C : Prop} (h : W ∨ (A ↔ B)) (keeps : B → C) (gains : C → B ∨ W) :
    W ∨ (A ↔ C) := by
  rcases h with hw | hiff
  · exact Or.inl hw
  · by_cases hw : W
    · exact Or.inl hw
    · exact Or.inr ⟨fun ha => keeps (hiff.mp ha), fun hc => hiff.mpr ((gains hc).resolve_right hw)⟩

theorem toNat_eq_add_of_or {a b c : Bool} (h : c = true ↔ a = true ∨ b = true)
    (hne : b = true → ¬ a = true) : c.toNat = a.toNat + b.toNat := by
  cases a <;> cases b <;> simp_all

end Logic

section List
variable {α : Type}

theorem countP_or {p q : α → Bool} (h : ∀ a, ¬ (p a = true ∧ q a = true)) (as : List α) :
    as.countP (fun a => p a || q a) = as.countP p + as.countP q := by
  induction as with
  | nil => rfl
  | cons a as ih =>
    have ha := h a
    simp only [List.countP_cons, ih]
    cases hp : p a <;> cases hq : q a <;> simp_all <;> omega

/-- Where keys are distinct, the first item with the key of an item is that item. -/
theorem find?_key {κ : Type} [DecidableEq κ] {key : α → κ} {items : List α} {item : α}
    (h : (items.map key).Nodup) (hi : item ∈ items) :
    items.find? (fun other => key other = key item) = some item := by
  cases hfind : items.find? (fun other => key other = key item) with
  | none => simpa using List.find?_eq_none.mp hfind item hi
  | some other =>
    have hkey : key other = key item := by simpa using List.find?_some hfind
    rw [List.inj_on_of_nodup_map h (List.mem_of_find?_eq_some hfind) hi hkey]

theorem mem_of_mem_splitOn [BEq α] {sep a : α} {as part : List α} (hp : part ∈ as.splitOn sep)
    (ha : a ∈ part) : a ∈ as := by
  induction as generalizing part with
  | nil =>
    obtain rfl := List.mem_singleton.mp hp
    exact ha
  | cons b as ih =>
    rw [List.splitOn_cons_eq_if_modifyHead] at hp
    split at hp
    · rcases List.mem_cons.mp hp with rfl | hp
      · cases ha
      · exact List.mem_cons_of_mem b (ih hp ha)
    · obtain ⟨first, others, hsplit⟩ := List.exists_cons_of_ne_nil (List.splitOn_ne_nil sep as)
      rw [hsplit] at hp ih
      rcases List.mem_cons.mp hp with rfl | hp
      · rcases List.mem_cons.mp ha with rfl | ha
        · exact List.mem_cons_self
        · exact List.mem_cons_of_mem b (ih List.mem_cons_self ha)
      · exact List.mem_cons_of_mem b (ih (List.mem_cons_of_mem first hp) ha)

theorem idxOf_lt_of_sublist [DecidableEq α] {a b : α} {as : List α} (hnodup : as.Nodup)
    (h : [a, b].Sublist as) : as.idxOf a < as.idxOf b := by
  have hincreasing : as.Pairwise fun a b => as.idxOf a < as.idxOf b := by
    rw [List.pairwise_iff_getElem]
    intro i j hi hj hij
    rwa [hnodup.idxOf_getElem, hnodup.idxOf_getElem]
  exact List.pairwise_iff_forall_sublist.mp hincreasing h

end List

section Cycle
variable {α : Type} {r s : α → α → Prop} {a b : α}

/-- Where a path comes through its start again, the part before that is left out. -/
theorem exists_nodup_chain (h : Relation.ReflTransGen r a b) :
    ∃ path, (a :: path).Nodup ∧ (a :: path).IsChain r ∧ (a :: path).getLast? = some b := by
  classical
  induction h using Relation.ReflTransGen.head_induction_on with
  | refl => exact ⟨[], List.nodup_singleton b, List.isChain_singleton b, rfl⟩
  | @head a c hac _ ih =>
    obtain ⟨path, hnodup, hchain, hlast⟩ := ih
    by_cases ha : a ∈ c :: path
    · obtain ⟨before, after, hsplit⟩ := List.append_of_mem ha
      rw [hsplit] at hnodup hchain hlast
      refine ⟨after, (List.nodup_append.mp hnodup).2.1, (List.isChain_append.mp hchain).2.1, ?_⟩
      rwa [List.getLast?_append_cons] at hlast
    · exact ⟨c :: path, List.nodup_cons.mpr ⟨ha, hnodup⟩, List.isChain_cons_cons.mpr ⟨hac, hchain⟩,
        by rwa [List.getLast?_cons_cons]⟩

theorem exists_nodup_cycle (h : Relation.TransGen r a a) :
    ∃ cycle : Cycle α, cycle.Nodup ∧ a ∈ cycle ∧ cycle.Chain r := by
  obtain ⟨b, hab, hba⟩ := Relation.TransGen.tail'_iff.mp h
  obtain ⟨path, hnodup, hchain, hlast⟩ := exists_nodup_chain hab
  refine ⟨(a :: path : List α), hnodup, List.mem_cons_self, ?_⟩
  rw [Cycle.chain_coe_cons, ← List.cons_append, List.isChain_append]
  refine ⟨hchain, List.isChain_singleton a, ?_⟩
  simpa [hlast] using hba

theorem cycle_chain_imp_of_mem {cycle : Cycle α} (h : cycle.Chain r)
    (himp : ∀ a ∈ cycle, ∀ b ∈ cycle, r a b → s a b) : cycle.Chain s := by
  induction cycle using Cycle.induction_on with
  | nil => exact .nil s
  | cons a path _ =>
    have hmem : ∀ x ∈ a :: (path ++ [a]), x ∈ ((a :: path : List α) : Cycle α) := by
      intro x hx
      rw [← List.cons_append, List.mem_append, List.mem_singleton] at hx
      exact hx.elim id fun heq => heq ▸ List.mem_cons_self
    rw [Cycle.chain_coe_cons] at h ⊢
    exact h.imp_of_mem_imp fun x y hx hy => himp x (hmem x hx) y (hmem y hy)

/-- A cycle goes up somewhere, whatever the points on it are ranked by. -/
theorem exists_rank_le {cycle : Cycle α} (hc : cycle ≠ .nil) (h : cycle.Chain r) (rank : α → ℕ) :
    ∃ a ∈ cycle, ∃ b ∈ cycle, r a b ∧ rank a ≤ rank b := by
  by_contra hdown
  push Not at hdown
  have htrans : IsTrans α fun a b => rank b < rank a := ⟨fun _ _ _ hab hbc => hbc.trans hab⟩
  have hirrefl : Std.Irrefl fun a b => rank b < rank a := ⟨fun a => lt_irrefl (rank a)⟩
  exact hc (cycle_chain_imp_of_mem h hdown).eq_nil_of_irrefl

end Cycle

namespace Table
variable {κ α : Type} [DecidableEq κ] {a b : Table κ α}

/-- Tables that agree on a key's presence and on what is read off its value agree on the key. -/
theorem map_get?_eq {β : Type} {key : κ} {f : α → β}
    (h : a.contains key = true ↔ b.contains key = true)
    (hf : ∀ x y, a.get? key = some x → b.get? key = some y → f x = f y) :
    (a.get? key).map f = (b.get? key).map f := by
  cases ha : a.get? key with
  | none =>
    have hb : b.get? key = none := by
      rw [← not_contains_iff, ← h, not_contains_iff]
      exact ha
    rw [hb]
  | some x =>
    obtain ⟨y, hb⟩ := Option.isSome_iff_exists.mp (h.mp (Option.isSome_iff_exists.mpr ⟨x, ha⟩))
    rw [hb]
    exact congrArg some (hf x y ha hb)

theorem size_eq_of_contains_iff (ha : a.keys.Nodup) (hb : b.keys.Nodup)
    (h : ∀ key, a.contains key = true ↔ b.contains key = true) :
    a.size = b.size := by
  have hperm : a.keys.Perm b.keys := by
    apply (List.perm_ext_iff_of_nodup ha hb).mpr
    intro key
    rw [← contains_iff, ← contains_iff]
    exact h key
  rw [← length_keys, ← length_keys]
  exact hperm.length_eq

theorem toNat_contains (t : Table κ α) (key : κ) :
    (t.contains key).toNat = if key ∈ t.keys then 1 else 0 := by
  by_cases h : t.contains key = true
  · rw [if_pos ((contains_iff t key).mp h), h, Bool.toNat_true]
  · rw [if_neg fun hm => h ((contains_iff t key).mpr hm), Bool.eq_false_iff.mpr h, Bool.toNat_false]

/-- Each value is listed once under its key. -/
theorem count_map_values {β : Type} [DecidableEq β] {t : Table κ α} {name : α → κ} {f : κ → β}
    (hf : f.Injective) (hk : ∀ entry ∈ t.entries, entry.1 = name entry.2) (hn : t.keys.Nodup)
    (key : κ) :
    (t.values.map fun a => f (name a)).count (f key) = (t.contains key).toNat := by
  have hkeys : (t.values.map fun a => f (name a)) = t.keys.map f := by
    rw [keys_eq_map_values hk, List.map_map]
    rfl
  rw [hkeys, List.count_map_of_injective _ f hf, hn.count, toNat_contains]

end Table

section Character
variable {c : Char}

theorem forall_ascii {P : Char → Prop} (h : ∀ n < 128, P (Char.ofNat n)) (hc : c.toNat < 128) :
    P c := by
  have hn := h c.toNat hc
  rwa [Char.ofNat_toNat] at hn

theorem toUpper_of_lt (h : c < 'a') : c.toUpper = c := by
  apply dif_neg
  rintro ⟨hlower, _⟩
  exact absurd hlower (UInt32.not_le.mpr h)

theorem toNat_ofNat_of_ascii (hc : c.toNat < 128) : (UInt8.ofNat c.toNat).toNat = c.toNat :=
  UInt8.toNat_ofNat_of_lt' (Nat.lt_trans hc (by decide))

theorem utf8EncodeChar_of_ascii (hc : c.toNat < 128) :
    String.utf8EncodeChar c = [UInt8.ofNat c.toNat] :=
  if_pos (Nat.le_of_lt_succ hc)

theorem exists_utf8EncodeChar_eq_cons (hc : ¬ c.toNat < 128) :
    ∃ b bs, String.utf8EncodeChar c = b :: bs ∧ 128 ≤ b.toNat := by
  have hval : ¬ c.val.toNat ≤ 0x7F := fun h => hc (Nat.lt_succ_of_le h)
  unfold String.utf8EncodeChar
  simp only [hval, if_false]
  split
  · exact ⟨_, _, rfl, by simp; omega⟩
  · split
    · exact ⟨_, _, rfl, by simp; omega⟩
    · exact ⟨_, _, rfl, by simp; omega⟩

end Character
end MessageRegistry
