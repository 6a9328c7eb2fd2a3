import Mathlib.Data.Set.Card
import MessageRegistry.Proofs.Registration.Fuel
import MessageRegistry.Proofs.Registration.Halting

/-!
How deep a walk nests and how often it goes into a type. The trail of a walk tells which types are
in progress at each moment. Main statement: a walk comes to an end, its types in progress have
pairwise different names all along, it goes into no name twice, and it needs no more fuel than one
unit for each name that its message type reaches, and one more.
-/
namespace MessageRegistry

/-- The names of the message types met on the way from `m`. -/
def Schema.reachedNames (S : Schema) (m : S.Message) : Set String :=
  {name | ∃ t, S.Reaches m t ∧ S.messageName t = name}

namespace Schema
variable {S : Schema} {m : S.Message}

theorem reachedNames_subset :
    S.reachedNames m ⊆ ((S.allMessages.map S.messageName).toFinset : Set String) := by
  rintro name ⟨t, _, rfl⟩
  simpa using ⟨t, S.mem_allMessages t, rfl⟩

theorem finite_reachedNames : (S.reachedNames m).Finite :=
  (Finset.finite_toSet _).subset reachedNames_subset

theorem ncard_reachedNames_le : (S.reachedNames m).ncard ≤ S.allMessages.length := by
  calc (S.reachedNames m).ncard
      ≤ ((S.allMessages.map S.messageName).toFinset : Set String).ncard :=
        Set.ncard_le_ncard reachedNames_subset (Finset.finite_toSet _)
    _ = (S.allMessages.map S.messageName).toFinset.card := Set.ncard_coe_finset _
    _ ≤ (S.allMessages.map S.messageName).length := List.toFinset_card_le _
    _ = S.allMessages.length := List.length_map _

end Schema

/-- The types in progress after a trail are different ones of those names. -/
structure Visit.Nests (names : Set String) (trail : List Visit) : Prop where
  nodup : (Visit.stack trail).Nodup
  among : ∀ name ∈ Visit.stack trail, name ∈ names

theorem Visit.Nests.length_le {names : Set String} {trail : List Visit} (h : Nests names trail)
    (hfinite : names.Finite) : (Visit.stack trail).length ≤ names.ncard := by
  rw [← List.toFinset_card_of_nodup h.nodup, ← Set.ncard_coe_finset]
  exact Set.ncard_le_ncard (fun name hn => h.among name (by simpa using hn)) hfinite

/-- The types in progress are different ones of those names at each moment of the trail, and no name
is entered twice. -/
structure Visit.Orderly (names : Set String) (trail : List Visit) : Prop where
  nests : ∀ earlier, earlier <:+ trail → Visit.Nests names earlier
  once : ∀ name, trail.count (.enter name) ≤ 1

namespace Visit.Orderly
variable {names : Set String} {trail : List Visit} {visit : Visit} {name : String}

theorem nil : Orderly names [] := by
  constructor
  · intro earlier he
    obtain rfl := List.suffix_nil.mp he
    exact ⟨List.nodup_nil, by simp [Visit.stack]⟩
  · simp

theorem now (h : Orderly names trail) : Nests names trail := h.nests trail List.suffix_rfl

theorem cons (h : Orderly names trail) (hs : Nests names (visit :: trail))
    (hv : ∀ name, visit = .enter name → visit ∉ trail) : Orderly names (visit :: trail) := by
  constructor
  · intro earlier he
    rcases List.suffix_cons_iff.mp he with rfl | he
    · exact hs
    · exact h.nests earlier he
  · intro name
    by_cases hn : visit = .enter name
    · have hnone := List.count_eq_zero.mpr (hv name hn)
      subst hn
      rw [List.count_cons_self, hnone]
    · rw [List.count_cons_of_ne hn]
      exact h.once name

theorem enter (h : Orderly names trail) (hn : name ∈ names) (hs : name ∉ Visit.stack trail)
    (ht : .enter name ∉ trail) : Orderly names (.enter name :: trail) := by
  apply h.cons
  · exact ⟨List.nodup_cons.mpr ⟨hs, h.now.nodup⟩, List.forall_mem_cons.mpr ⟨hn, h.now.among⟩⟩
  · exact fun _ _ => ht

theorem leave (h : Orderly names trail) (name : String) : Orderly names (.leave name :: trail) := by
  apply h.cons
  · exact ⟨h.now.nodup.tail, fun other ho => h.now.among other (List.mem_of_mem_tail ho)⟩
  · intro other ho
    cases ho

theorem revisit (h : Orderly names trail) (name : String) :
    Orderly names (.revisit name :: trail) := by
  apply h.cons
  · exact ⟨h.now.nodup, h.now.among⟩
  · intro other ho
    cases ho

end Visit.Orderly

/-- The trail of a draft is orderly and tells its types in progress; what it tells to have been
entered is in progress or drafted. -/
structure Draft.Tracked (names : Set String) (draft : Draft) : Prop where
  orderly : Visit.Orderly names draft.trail
  stack_eq : Visit.stack draft.trail = draft.inProgress
  entered : ∀ name, .enter name ∈ draft.trail →
    name ∈ draft.inProgress ∨ draft.messages.contains name = true

namespace Draft.Tracked
variable {names : Set String} {draft : Draft} {name : String}

theorem empty : Draft.empty.Tracked names :=
  ⟨.nil, rfl, by simp [Draft.empty]⟩

theorem enter (h : draft.Tracked names) (hn : name ∈ names) (hp : name ∉ draft.inProgress)
    (hk : ¬ draft.messages.contains name = true) : (draft.enter name).Tracked names := by
  have ht : .enter name ∉ draft.trail := fun ht => (h.entered name ht).elim hp hk
  refine ⟨h.orderly.enter hn (by rwa [h.stack_eq]) ht, congrArg (name :: ·) h.stack_eq, ?_⟩
  intro other ho
  rcases List.mem_cons.mp ho with ho | ho
  · cases ho
    exact Or.inl (List.mem_cons_self ..)
  · exact (h.entered other ho).imp_left (List.mem_cons_of_mem name)

theorem revisit (h : draft.Tracked names) (name : String) : (draft.revisit name).Tracked names :=
  ⟨h.orderly.revisit name, h.stack_eq, fun other ho =>
    h.entered other (by simpa [Draft.revisit] using ho)⟩

theorem stageEnum (h : draft.Tracked names) (info : EnumInfo) :
    (draft.stageEnum info).Tracked names :=
  ⟨h.orderly, h.stack_eq, h.entered⟩

theorem describe (h : draft.Tracked names) {rest : List String}
    (hp : draft.inProgress = name :: rest) {info : MessageInfo} (hi : info.name = name) :
    ((draft.leave name).stageMessage info).Tracked names := by
  refine ⟨h.orderly.leave name, congrArg List.tail h.stack_eq, fun other ho => ?_⟩
  have hin : .enter other ∈ draft.trail := by simpa [Draft.stageMessage, Draft.leave] using ho
  simp only [Draft.stageMessage, Draft.leave, hp, List.tail_cons, Table.contains_insert, hi,
    Bool.or_eq_true, decide_eq_true_eq]
  rcases h.entered other hin with hm | hd
  · rw [hp] at hm
    rcases List.mem_cons.mp hm with rfl | hm
    · exact Or.inr (Or.inl rfl)
    · exact Or.inl hm
  · exact Or.inr (Or.inr hd)

end Draft.Tracked

/-- From one draft to another the trail stays tracked, and the types in progress are the same. -/
def Draft.Tracks (names : Set String) (draft final : Draft) : Prop :=
  draft.Tracked names → final.Tracked names ∧ final.inProgress = draft.inProgress

namespace Draft.Tracks
variable {names : Set String} {draft middle final : Draft}

theorem refl (draft : Draft) : Tracks names draft draft := fun h => ⟨h, rfl⟩

theorem trans (h : Tracks names draft middle) (g : Tracks names middle final) :
    Tracks names draft final := by
  intro hd
  obtain ⟨hm, hp⟩ := h hd
  obtain ⟨hf, hq⟩ := g hm
  exact ⟨hf, hq.trans hp⟩

end Draft.Tracks

namespace Registration
variable {S : Schema} {catalog : Catalog} {strict : Bool} {fuel : Nat} {root m : S.Message}
variable {draft middle final : Draft} {type : S.FieldType} {halt : Halt}

theorem Enters.tracked (h : Enters S catalog m draft) (hr : S.Reaches root m)
    (hd : draft.Tracked (S.reachedNames root)) :
    (draft.enter (S.messageName m)).Tracked (S.reachedNames root) :=
  hd.enter ⟨m, hr, rfl⟩ h.not_inProgress fun hk => h.not_knows (Or.inr hk)

theorem Ensured.tracks
    (h : Ensured S catalog strict
      (fun t draft final => S.Reaches root t → Draft.Tracks (S.reachedNames root) draft final)
      type draft final)
    (hr : S.ReachesElement root type) : Draft.Tracks (S.reachedNames root) draft final := by
  cases h with
  | scalar kind => exact .refl _
  | message h => exact h hr
  | knownEnum h => exact .refl _
  | newEnum hn h => exact fun hd => ⟨hd.stageEnum _, rfl⟩

theorem tracks_cons {owner : String} {field : S.Field} {fields : List S.Field}
    {form : Form S.Message S.Enum} (hf : S.form? strict owner field = .ok form)
    (he : Ensured S catalog strict
      (fun t draft final => S.Reaches root t → Draft.Tracks (S.reachedNames root) draft final)
      form.element draft middle)
    (hw : S.ReachesFields root fields → Draft.Tracks (S.reachedNames root) middle final)
    (hr : S.ReachesFields root (field :: fields)) :
    Draft.Tracks (S.reachedNames root) draft final :=
  (he.tracks (hr.head (Schema.hasElement_of_form? hf))).trans (hw hr.tail)

theorem walk_tracks (h : walk S catalog strict fuel m draft = .ok final) (hr : S.Reaches root m) :
    Draft.Tracks (S.reachedNames root) draft final := by
  revert hr
  refine walk_induction
    (P := fun m draft final => S.Reaches root m → Draft.Tracks (S.reachedNames root) draft final)
    (F := fun _ _ fields draft _ final =>
      S.ReachesFields root fields → Draft.Tracks (S.reachedNames root) draft final) ?_ ?_ ?_ ?_ ?_ h
  · intro m draft _ _ _ hd
    exact ⟨hd.revisit _, rfl⟩
  · intro m draft _ _ _ _
    exact .refl _
  · intro m draft infos middle info hm hp hk hw hi hr hd
    have hentered := Enters.tracked ⟨hm, hp, hk⟩ hr hd
    obtain ⟨hmiddle, hin⟩ := hw hr.fields hentered
    exact ⟨hmiddle.describe hin (MessageInfo.name_of_ofFields? hi), congrArg List.tail hin⟩
  · intro _ _ draft _
    exact .refl _
  · intro _ _ _ _ _ _ _ _ _ hf he hw
    exact tracks_cons hf he hw

theorem walkFields_tracks {owner : String} {position : Nat} {fields : List S.Field}
    {infos : List FieldInfo}
    (h : walkFields S catalog strict (walk S catalog strict fuel) owner position fields draft =
      .ok (infos, final))
    (hr : S.ReachesFields root fields) : Draft.Tracks (S.reachedNames root) draft final := by
  revert hr
  exact walkFields_induction
    (F := fun _ _ fields draft _ final =>
      S.ReachesFields root fields → Draft.Tracks (S.reachedNames root) draft final)
    (fun _ _ _ => walk_tracks) (fun _ _ draft _ => .refl _)
    (fun _ _ _ _ _ _ _ _ _ => tracks_cons) h

theorem ComesTo.tracked {field : S.Field}
    (h : ComesTo S catalog strict fuel m draft field middle) (hr : S.Reaches root m)
    (hd : draft.Tracked (S.reachedNames root)) : middle.Tracked (S.reachedNames root) := by
  obtain ⟨before, after, infos, hfields, hw⟩ := h.past
  have hreach : S.ReachesFields root before :=
    fun field hf type he => hr.element (by simp [hfields, hf]) he
  exact (walkFields_tracks hw hreach (h.enters.tracked hr hd)).1

/-- The calls that the walk over `root` makes: so many others are under way when it asks, with that
much fuel left, for a message type and a draft. -/
inductive Calls (S : Schema) (catalog : Catalog) (strict : Bool) (root : S.Message) :
    Nat → Nat → S.Message → Draft → Prop
  | outermost (fuel : Nat) : Calls S catalog strict root 0 fuel root .empty
  | nested {depth fuel : Nat} {m t : S.Message} {draft middle : Draft} {field : S.Field}
      {form : Form S.Message S.Enum} (h : Calls S catalog strict root depth (fuel + 1) m draft)
      (hc : ComesTo S catalog strict fuel m draft field middle)
      (hf : S.form? strict (S.messageName m) field = .ok form) (ht : form.element = .message t) :
      Calls S catalog strict root (depth + 1) fuel t middle

theorem Calls.tracked {depth : Nat} (h : Calls S catalog strict root depth fuel m draft) :
    S.Reaches root m ∧ draft.Tracked (S.reachedNames root) ∧ draft.inProgress.length = depth := by
  induction h with
  | outermost fuel => exact ⟨.refl, .empty, rfl⟩
  | nested _ hc hf ht ih =>
    obtain ⟨hr, hd, hlength⟩ := ih
    have helement := hr.element hc.mem (Schema.hasElement_of_form? hf)
    rw [ht] at helement
    exact ⟨helement, hc.tracked hr hd, by rw [hc.inProgress, List.length_cons, hlength]⟩

/-- How a walk halts that could nest this deep: with an orderly trail, or for lack of fuel when it
has no more than that many names to go into. -/
def Orderly (names : Set String) (depth : Nat) : Halt → Prop
  | .rejected _ trail => Visit.Orderly names trail
  | .exhausted => depth ≤ names.ncard

theorem orderly_inField {names : Set String} {depth : Nat} {owner field : String} :
    Orderly names depth (halt.inField owner field) ↔ Orderly names depth halt := by
  cases halt <;> rfl

/-- A walk nests one deeper with each type that it goes into, which is one more name in progress. -/
theorem Halts.orderly (h : Halts S catalog strict fuel type draft halt)
    (hr : S.ReachesElement root type) (hd : draft.Tracked (S.reachedNames root)) :
    Orderly (S.reachedNames root) (fuel + draft.inProgress.length) halt := by
  induction h with
  | exhausted m draft =>
    rw [Nat.zero_add, ← hd.stack_eq]
    exact hd.orderly.now.length_le Schema.finite_reachedNames
  | unnamed _ _ | mapEntry _ _ | enum _ _ => exact hd.orderly
  | form h _ => exact (h.tracked hr hd).orderly
  | @element fuel m draft middle field form inner h hf _ ih =>
    have helement := hr.element h.mem (Schema.hasElement_of_form? hf)
    have hinner := ih helement (h.tracked hr hd)
    rw [h.inProgress, List.length_cons, ← Nat.add_assoc, Nat.add_right_comm] at hinner
    exact orderly_inField.mpr hinner
  | index h hw _ =>
    have hmiddle := (walkFields_tracks hw hr.fields (h.tracked hr hd)).1
    exact hmiddle.orderly.leave _

/-- One unit of fuel for each name within reach, and one more, are enough. -/
theorem walk_ne_exhausted_of_ncard (h : (S.reachedNames m).ncard + 1 ≤ fuel) :
    walk S catalog strict fuel m .empty ≠ .error .exhausted := by
  intro hw
  have hroot : S.ReachesElement m (.message m) := Schema.Reaches.refl
  have hdepth : fuel + 0 ≤ (S.reachedNames m).ncard :=
    (halts_of_walk_eq_error hw).orderly hroot .empty
  omega

/-- A walk from the empty draft comes to an end, with an orderly trail. -/
theorem draftMessage_orderly (S : Schema) (catalog : Catalog) (strict : Bool) (m : S.Message) :
    ∃ trail, Visit.Orderly (S.reachedNames m) trail ∧
      ((∃ draft, draftMessage S catalog strict m = .ok draft ∧ draft.trail = trail ∧
          draft.inProgress = [] ∧ Visit.stack trail = []) ∨
        ∃ fault, draftMessage S catalog strict m = .error (.rejected fault trail)) := by
  cases hw : draftMessage S catalog strict m with
  | ok draft =>
    obtain ⟨hd, hp⟩ := walk_tracks hw .refl .empty
    exact ⟨draft.trail, hd.orderly, Or.inl ⟨draft, rfl, rfl, hp, hd.stack_eq.trans hp⟩⟩
  | error halt =>
    have hroot : S.ReachesElement m (.message m) := Schema.Reaches.refl
    have ho := (halts_of_walk_eq_error hw).orderly hroot .empty
    cases halt with
    | exhausted => exact absurd hw draftMessage_ne_exhausted
    | rejected fault trail => exact ⟨trail, ho, Or.inr ⟨fault, rfl⟩⟩

theorem walk_eq_draftMessage (h : (S.reachedNames m).ncard + 1 ≤ fuel) :
    walk S catalog strict fuel m .empty = draftMessage S catalog strict m := by
  have hne : walk S catalog strict ((S.reachedNames m).ncard + 1) m .empty ≠ .error .exhausted :=
    walk_ne_exhausted_of_ncard le_rfl
  have hmore : ∀ enough, (S.reachedNames m).ncard + 1 ≤ enough →
      walk S catalog strict enough m .empty =
        walk S catalog strict ((S.reachedNames m).ncard + 1) m .empty := by
    intro enough he
    obtain ⟨more, rfl⟩ := Nat.exists_eq_add_of_le he
    exact walk_add_fuel hne more
  have henough : (S.reachedNames m).ncard + 1 ≤ enoughFuel S :=
    Nat.succ_le_succ Schema.ncard_reachedNames_le
  exact (hmore fuel h).trans (hmore (enoughFuel S) henough).symm

/-- The walk over a message type ends, however the types refer to each other and whatever names they
share. At each moment the types in progress have pairwise different names, all within reach; no name
is entered twice; and when the walk succeeds nothing is left in progress. A call finds one type in
progress for each call around it, so that calls never nest deeper than there are names within reach,
and once more, and those are no more than there are message types. -/
theorem draftMessage_terminates (S : Schema) (catalog : Catalog) (strict : Bool) (m : S.Message) :
    (∃ trail,
      ((∃ draft, draftMessage S catalog strict m = .ok draft ∧ draft.trail = trail ∧
          draft.inProgress = [] ∧ Visit.stack trail = []) ∨
        ∃ fault, draftMessage S catalog strict m = .error (.rejected fault trail)) ∧
      (∀ earlier, earlier <:+ trail → (Visit.stack earlier).Nodup ∧
        (∀ name ∈ Visit.stack earlier, name ∈ S.reachedNames m) ∧
        (Visit.stack earlier).length ≤ (S.reachedNames m).ncard) ∧
      ∀ name, trail.count (.enter name) ≤ 1) ∧
    (∀ depth fuel t draft, Calls S catalog strict m depth fuel t draft →
      draft.inProgress = Visit.stack draft.trail ∧ draft.inProgress.Nodup ∧
      draft.inProgress.length = depth ∧ depth ≤ (S.reachedNames m).ncard) ∧
    (∀ fuel, (S.reachedNames m).ncard + 1 ≤ fuel →
      walk S catalog strict fuel m .empty ≠ .error .exhausted ∧
      walk S catalog strict fuel m .empty = draftMessage S catalog strict m) ∧
    (S.reachedNames m).ncard ≤ S.allMessages.length := by
  obtain ⟨trail, horderly, hend⟩ := draftMessage_orderly S catalog strict m
  refine ⟨⟨trail, hend, fun earlier he => ?_, horderly.once⟩, fun depth fuel t draft hc => ?_,
    fun fuel hf => ?_, Schema.ncard_reachedNames_le⟩
  · have hnests := horderly.nests earlier he
    exact ⟨hnests.nodup, hnests.among, hnests.length_le Schema.finite_reachedNames⟩
  · obtain ⟨_, hd, hlength⟩ := hc.tracked
    have hdeep := hd.orderly.now.length_le Schema.finite_reachedNames
    have hnodup := hd.orderly.now.nodup
    rw [hd.stack_eq] at hdeep hnodup
    exact ⟨hd.stack_eq.symm, hnodup, hlength, hlength ▸ hdeep⟩
  · exact ⟨walk_ne_exhausted_of_ncard hf, walk_eq_draftMessage hf⟩

end Registration
end MessageRegistry
