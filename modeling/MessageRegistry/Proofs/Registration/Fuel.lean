import MessageRegistry.Proofs.Registration.Sound

/-!
The fuel of a walk. The types in progress have different names, so that nesting is bounded by the
number of types. Main statements: a walk that starts with enough fuel does not run out of it, and
more fuel changes nothing.
-/
namespace MessageRegistry.Registration
variable {S : Schema} {catalog : Catalog} {strict : Bool} {fuel : Nat} {m : S.Message}
variable {draft : Draft}

/-- The fuel lasts for a walk among these types in progress. -/
structure Fits (S : Schema) (fuel : Nat) (inProgress : List String) : Prop where
  nodup : inProgress.Nodup
  declared : ∀ name ∈ inProgress, ∃ m, S.messageName m = name
  enough : enoughFuel S ≤ fuel + inProgress.length

theorem Fits.start (S : Schema) : Fits S (enoughFuel S) [] :=
  ⟨List.nodup_nil, by simp, by simp⟩

theorem Fits.ne_zero {inProgress : List String} (h : Fits S fuel inProgress) : fuel ≠ 0 := by
  rintro rfl
  have hsubset : inProgress ⊆ S.allMessages.map S.messageName := by
    intro name hn
    obtain ⟨m, rfl⟩ := h.declared name hn
    exact List.mem_map.mpr ⟨m, S.mem_allMessages m, rfl⟩
  have hlength := h.nodup.length_le_of_subset hsubset
  rw [List.length_map] at hlength
  have henough := h.enough
  simp only [enoughFuel] at henough
  omega

theorem Fits.enter (h : Fits S (fuel + 1) draft.inProgress)
    (hp : S.messageName m ∉ draft.inProgress) :
    Fits S fuel (draft.enter (S.messageName m)).inProgress := by
  have henough := h.enough
  refine ⟨List.nodup_cons.mpr ⟨hp, h.nodup⟩, ?_, ?_⟩
  · exact List.forall_mem_cons.mpr ⟨⟨m, rfl⟩, h.declared⟩
  · simp only [Draft.enter, List.length_cons]
    omega

theorem conclude_eq_exhausted_iff {name : String}
    {walked : Except Halt (List FieldInfo × Draft)} :
    conclude name walked = .error .exhausted ↔ walked = .error .exhausted := by
  simp [conclude_eq_error_iff]

theorem ensureElement_ne_exhausted {ensure : S.Message → Draft → Except Halt Draft}
    {type : S.FieldType} (hE : ∀ t, ensure t draft ≠ .error .exhausted) :
    ensureElement S catalog strict ensure type draft ≠ .error .exhausted := by
  cases type with
  | scalar kind => simp [ensureElement]
  | message t => exact hE t
  | enum e =>
    simp only [ensureElement]
    by_cases hk : draft.KnowsEnum catalog (S.enumName e)
    · simp [ensureEnum_known hk]
    · rw [ensureEnum_new hk]
      cases (S.enum e).describe? strict <;> simp

/-- Only a message type can exhaust the walk over fields. -/
theorem walkFields_ne_exhausted {owner : String} {position : Nat} {fields : List S.Field}
    (hE : ∀ t middle, middle.inProgress = draft.inProgress →
      walk S catalog strict fuel t middle ≠ .error .exhausted) :
    walkFields S catalog strict (walk S catalog strict fuel) owner position fields draft ≠
      .error .exhausted := by
  induction fields generalizing position draft with
  | nil => simp [walkFields]
  | cons field fields ih =>
    cases hf : S.form? strict owner field with
    | error fault => simp [walkFields_of_form_error hf]
    | ok form =>
      have hne : ensureElement S catalog strict (walk S catalog strict fuel) form.element draft ≠
          .error .exhausted := ensureElement_ne_exhausted fun t => hE t draft rfl
      cases he : ensureElement S catalog strict (walk S catalog strict fuel) form.element draft with
      | error halt =>
        rw [walkFields_of_element_error hf he]
        cases halt with
        | rejected fault trail => simp [Halt.inField]
        | exhausted => exact absurd he hne
      | ok middle =>
        have hp : middle.inProgress = draft.inProgress :=
          (ensured_of_ensureElement_eq_ok (fun _ _ _ => walk_walked) he).extension.inProgress
        rw [walkFields_of_element_ok hf he, Ne, prepend_eq_error_iff]
        exact ih fun t last hl => hE t last (hl.trans hp)

theorem walk_ne_exhausted (h : Fits S fuel draft.inProgress) :
    walk S catalog strict fuel m draft ≠ .error .exhausted := by
  induction fuel generalizing m draft with
  | zero => exact absurd rfl h.ne_zero
  | succ fuel ih =>
    rcases meeting_cases S catalog m draft with hn | ⟨hn, he⟩ | ⟨hm, hp⟩ | ⟨hm, hp, hk⟩ |
      ⟨hm, hp, hk⟩
    · simp [walk_unnamed hn]
    · simp [walk_mapEntry hn he]
    · simp [walk_inProgress hm hp]
    · simp [walk_known hm hp hk]
    · rw [walk_new hm hp hk, Ne, conclude_eq_exhausted_iff]
      apply walkFields_ne_exhausted
      intro t middle hi
      exact ih (by rw [hi]; exact h.enter hp)

/-- The fuel that a registration gives its walk is enough. -/
theorem draftMessage_ne_exhausted : draftMessage S catalog strict m ≠ .error .exhausted :=
  walk_ne_exhausted (.start S)

theorem walkFields_congr {f g : S.Message → Draft → Except Halt Draft} {owner : String}
    {position : Nat} {fields : List S.Field}
    (hE : ∀ t draft, f t draft ≠ .error .exhausted → g t draft = f t draft)
    (h : walkFields S catalog strict f owner position fields draft ≠ .error .exhausted) :
    walkFields S catalog strict g owner position fields draft =
      walkFields S catalog strict f owner position fields draft := by
  induction fields generalizing position draft with
  | nil => rfl
  | cons field fields ih =>
    cases hf : S.form? strict owner field with
    | error fault => rw [walkFields_of_form_error hf, walkFields_of_form_error hf]
    | ok form =>
      have hsame : ensureElement S catalog strict f form.element draft ≠ .error .exhausted →
          ensureElement S catalog strict g form.element draft =
            ensureElement S catalog strict f form.element draft := by
        cases form.element with
        | scalar kind => simp [ensureElement]
        | message t => exact hE t draft
        | enum e => simp [ensureElement]
      cases he : ensureElement S catalog strict f form.element draft with
      | error halt =>
        rw [walkFields_of_element_error hf he] at h ⊢
        have hne : ensureElement S catalog strict f form.element draft ≠ .error .exhausted := by
          rw [he]
          rintro hx
          cases hx
          exact h rfl
        rw [walkFields_of_element_error hf ((hsame hne).trans he)]
      | ok middle =>
        have hne : ensureElement S catalog strict f form.element draft ≠ .error .exhausted := by
          simp [he]
        rw [walkFields_of_element_ok hf he, Ne, prepend_eq_error_iff] at h
        rw [walkFields_of_element_ok hf he, walkFields_of_element_ok hf ((hsame hne).trans he),
          ih h]

/-- A walk that did not run out of fuel ends the same way with more of it. -/
theorem walk_add_fuel (h : walk S catalog strict fuel m draft ≠ .error .exhausted) (more : Nat) :
    walk S catalog strict (fuel + more) m draft = walk S catalog strict fuel m draft := by
  induction fuel generalizing m draft with
  | zero => exact absurd rfl h
  | succ fuel ih =>
    rw [show fuel + 1 + more = fuel + more + 1 by omega]
    rcases meeting_cases S catalog m draft with hn | ⟨hn, he⟩ | ⟨hm, hp⟩ | ⟨hm, hp, hk⟩ |
      ⟨hm, hp, hk⟩
    · rw [walk_unnamed hn, walk_unnamed hn]
    · rw [walk_mapEntry hn he, walk_mapEntry hn he]
    · rw [walk_inProgress hm hp, walk_inProgress hm hp]
    · rw [walk_known hm hp hk, walk_known hm hp hk]
    · rw [walk_new hm hp hk, Ne, conclude_eq_exhausted_iff] at h
      rw [walk_new hm hp hk, walk_new hm hp hk]
      rw [walkFields_congr (fun t draft hne => ih hne) h]

end MessageRegistry.Registration
