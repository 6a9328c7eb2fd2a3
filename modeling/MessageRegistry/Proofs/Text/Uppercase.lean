import MessageRegistry.Proofs.General
import MessageRegistry.Text.Uppercase

/-!
Upper-case letters stay as they are. Main statements: whatever a character becomes starts with a
character that is its own upper case, no character but the underscore becomes one, and in ASCII only
letters have a capital.

The mapping is a table, so this is checked on the table: no capital of a run is a letter of a run.
-/
namespace MessageRegistry.Text

namespace CaseRun
variable {run other : CaseRun} {c : Nat}

theorem contains_iff :
    run.contains c = true ↔ run.first ≤ c ∧ c ≤ run.last ∧ (c - run.first) % run.step = 0 := by
  simp [contains, and_assoc]

/-- The letters of the run, one by one. -/
def letters (run : CaseRun) : List Nat :=
  List.range' run.first ((run.last - run.first) / run.step + 1) run.step

theorem mem_letters (h : run.contains c = true) : c ∈ run.letters := by
  obtain ⟨hfirst, hlast, hstep⟩ := contains_iff.mp h
  have hle : (c - run.first) / run.step ≤ (run.last - run.first) / run.step :=
    Nat.div_le_div_right (Nat.sub_le_sub_right hlast run.first)
  have hc : c = run.first + run.step * ((c - run.first) / run.step) := by
    rw [Nat.mul_div_cancel' (Nat.dvd_of_mod_eq_zero hstep), Nat.add_sub_cancel' hfirst]
  exact List.mem_range'.mpr ⟨_, Nat.lt_succ_of_le hle, hc⟩

/-- The capitals of the run are characters, and none is an underscore. Its letters are those of
ASCII, or beyond. -/
structure Proper (run : CaseRun) : Prop where
  isValidChar : (run.map run.last).isValidChar ∧ (run.map run.last < 0xD800 ∨ 0xDFFF < run.capital)
  underscore : run.map run.last < 0x5F ∨ 0x5F < run.capital
  ascii : (run.first = 'a'.toNat ∧ run.last = 'z'.toNat) ∨ 128 ≤ run.first

instance (run : CaseRun) : Decidable run.Proper :=
  decidable_of_iff (((run.map run.last).isValidChar ∧
      (run.map run.last < 0xD800 ∨ 0xDFFF < run.capital)) ∧
        (run.map run.last < 0x5F ∨ 0x5F < run.capital) ∧
          ((run.first = 'a'.toNat ∧ run.last = 'z'.toNat) ∨ 128 ≤ run.first))
    ⟨fun h => ⟨h.1, h.2.1, h.2.2⟩, fun h => ⟨h.1, h.2, h.3⟩⟩

theorem Proper.toNat_ofNat (h : run.Proper) (hc : run.contains c = true) :
    (Char.ofNat (run.map c)).toNat = run.map c := by
  obtain ⟨hfirst, hlast, _⟩ := contains_iff.mp hc
  obtain ⟨hvalid, hgap⟩ := h.isValidChar
  have hmap : (run.map c).isValidChar := by
    unfold Nat.isValidChar map at *
    omega
  rw [Char.ofNat, dif_pos hmap]
  rfl

theorem Proper.map_ne (h : run.Proper) (hc : run.contains c = true) : run.map c ≠ 0x5F := by
  obtain ⟨hfirst, hlast, _⟩ := contains_iff.mp hc
  have := h.underscore
  unfold map at *
  omega

end CaseRun

/-- Every character that becomes another one, with the first character of its upper case. -/
def cased : List CaseRun :=
  caseRuns ++ expansions.map fun e => ⟨e.1, e.1, 1, e.2.headD 0⟩

/-- A set of code points as one number, with a bit for each of them. -/
def bits (codes : List Nat) : Nat := codes.foldl (fun set code => set ||| 1 <<< code) 0

/-- A bit that is set stays set while further code points are added. -/
theorem testBit_foldl_or {codes : List Nat} {set code : Nat}
    (h : code ∈ codes ∨ set.testBit code = true) :
    (codes.foldl (fun set code => set ||| 1 <<< code) set).testBit code = true := by
  induction codes generalizing set with
  | nil => exact h.resolve_left List.not_mem_nil
  | cons other codes ih =>
    apply ih
    rw [Nat.testBit_or, Bool.or_eq_true]
    rcases h with h | h
    · rcases List.mem_cons.mp h with rfl | h
      · exact Or.inr (Or.inr (by simp [Nat.testBit_shiftLeft]))
      · exact Or.inl h
    · exact Or.inr (Or.inl h)

theorem testBit_bits {codes : List Nat} {code : Nat} (h : code ∈ codes) :
    (bits codes).testBit code = true :=
  testBit_foldl_or (Or.inl h)

def casedBits : Nat := bits (cased.flatMap CaseRun.letters)

theorem capitals_not_cased : (cased.all fun run =>
    run.letters.all fun c => !casedBits.testBit (run.map c)) = true := by
  decide +kernel

theorem contains_map_eq_false {run other : CaseRun} {c : Nat} (hrun : run ∈ cased)
    (hc : run.contains c = true) (hother : other ∈ cased) : other.contains (run.map c) = false := by
  have hcapital := List.all_eq_true.mp (List.all_eq_true.mp capitals_not_cased run hrun) c
    (CaseRun.mem_letters hc)
  rw [Bool.eq_false_iff]
  intro hletter
  have hbit : casedBits.testBit (run.map c) = true :=
    testBit_bits (List.mem_flatMap.mpr ⟨other, hother, CaseRun.mem_letters hletter⟩)
  simp [hbit] at hcapital

theorem proper_cased : ∀ run ∈ cased, run.Proper := by decide +kernel

theorem proper_expansions : ∀ e ∈ expansions, e.2 ≠ [] ∧ '_' ∉ e.2.tail.map Char.ofNat := by
  decide +kernel

variable {c : Char}

theorem upper_eq_self (h : ∀ run ∈ cased, run.contains c.toNat = false) : upper c = [c] := by
  have hlookup : expansions.lookup c.toNat = none := by
    rw [List.lookup_eq_none_iff]
    intro e he
    have hrun := h _ (List.mem_append_right _ (List.mem_map_of_mem he))
    rw [bne_iff_ne]
    intro heq
    simp [CaseRun.contains, heq] at hrun
  have hfind : caseRuns.find? (·.contains c.toNat) = none := by
    rw [List.find?_eq_none]
    intro run hrun
    simp [h run (List.mem_append_left _ hrun)]
  simp [upper, hlookup, hfind]

/-- A character that does not stay itself becomes the capital that the table lists for it. -/
theorem upper_eq_self_or (c : Char) : upper c = [c] ∨ ∃ run ∈ cased, run.contains c.toNat = true ∧
    ∃ rest, upper c = Char.ofNat (run.map c.toNat) :: rest ∧ '_' ∉ rest := by
  cases hlookup : expansions.lookup c.toNat with
  | some cs =>
    obtain ⟨before, after, heq, _⟩ := List.lookup_eq_some_iff.mp hlookup
    have he : (c.toNat, cs) ∈ expansions := by simp [heq]
    obtain ⟨hne, hrest⟩ := proper_expansions _ he
    obtain ⟨first, rest, rfl⟩ := List.exists_cons_of_ne_nil hne
    refine Or.inr ⟨⟨c.toNat, c.toNat, 1, first⟩, ?_, ?_, rest.map Char.ofNat, ?_, hrest⟩
    · exact List.mem_append_right _ (List.mem_map.mpr ⟨_, he, rfl⟩)
    · simp [CaseRun.contains]
    · simp [upper, hlookup, CaseRun.map]
  | none =>
    cases hfind : caseRuns.find? (·.contains c.toNat) with
    | some run =>
      have hc := List.find?_some hfind
      refine Or.inr ⟨run, List.mem_append_left _ (List.mem_of_find?_eq_some hfind), hc, [], ?_,
        List.not_mem_nil⟩
      simp [upper, hlookup, hfind]
    | none => exact Or.inl (by simp [upper, hlookup, hfind])

/-- The upper case of a character starts with a character that is its own upper case. -/
theorem exists_upper_eq_cons (c : Char) :
    ∃ first rest, upper c = first :: rest ∧ upper first = [first] := by
  rcases upper_eq_self_or c with h | ⟨run, hrun, hc, rest, h, _⟩
  · exact ⟨c, [], h, h⟩
  · refine ⟨_, rest, h, upper_eq_self fun other ho => ?_⟩
    rw [(proper_cased run hrun).toNat_ofNat hc]
    exact contains_map_eq_false hrun hc ho

theorem underscore_not_mem_upper (hc : c ≠ '_') : '_' ∉ upper c := by
  rcases upper_eq_self_or c with h | ⟨run, hrun, hmem, rest, h, hrest⟩
  · simpa [h] using hc.symm
  · have hproper := proper_cased run hrun
    rw [h, List.mem_cons, not_or]
    refine ⟨fun hu => hproper.map_ne hmem ?_, hrest⟩
    rw [← hproper.toNat_ofNat hmem, ← hu]
    rfl

theorem upper_of_ascii (hc : c.toNat < 128) : upper c = [c.toUpper] := by
  by_cases hlower : 'a'.toNat ≤ c.toNat ∧ c.toNat ≤ 'z'.toNat
  · exact forall_ascii (P := fun c =>
      'a'.toNat ≤ c.toNat ∧ c.toNat ≤ 'z'.toNat → upper c = [c.toUpper])
      (by decide +kernel) hc hlower
  · have hself : c.toUpper = c := dif_neg hlower
    rw [hself]
    apply upper_eq_self
    intro run hrun
    rw [Bool.eq_false_iff, Ne, CaseRun.contains_iff]
    rcases (proper_cased run hrun).ascii with ⟨hfirst, hlast⟩ | hfirst <;> omega

end MessageRegistry.Text
