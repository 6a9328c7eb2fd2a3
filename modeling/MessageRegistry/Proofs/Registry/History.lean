import MessageRegistry.Proofs.Registration.History
import MessageRegistry.Proofs.Registry.Acceptance

/-!
Registrations after different histories. Main statement: where names are distinct, two registries
over one schema and with one strictness answer a registration with equal descriptions or with the
same fault.
-/
namespace MessageRegistry

theorem Draft.Agrees.start {S : Schema} {strict : Bool} {first second : Catalog}
    (hd : S.NamesDistinct) (hf : first.Sound S strict) (hs : second.Sound S strict) :
    Draft.Agrees S strict first second .empty .empty := by
  refine ⟨rfl, fun t => ?_, fun e => ?_⟩
  · by_cases h : first.messages.contains (S.messageName t) = true
    · exact Or.inl (hf.wellFormedFrom hd h)
    · by_cases g : second.messages.contains (S.messageName t) = true
      · exact Or.inl (hs.wellFormedFrom hd g)
      · exact Or.inr (by simp only [Draft.knows_empty, h, g])
  · by_cases h : first.enums.contains (S.enumName e) = true
    · exact Or.inl (hf.wellFormedEnum hd h)
    · by_cases g : second.enums.contains (S.enumName e) = true
      · exact Or.inl (hs.wellFormedEnum hd g)
      · exact Or.inr (by simp only [Draft.knowsEnum_empty, h, g])

namespace Registry
variable {S : Schema} {registry first second : Registry} {m : S.Message}
variable {outcome : Outcome (Except Failure (Shared MessageInfo))}

theorem Registered.describes (h : Registered S registry m outcome) (hd : S.NamesDistinct)
    (hs : registry.catalog.Sound S registry.config.strictNames) {info : Shared MessageInfo}
    (hok : outcome.answer = .ok info) : S.Describes m info.value := by
  cases h with
  | unnamed _ | rejected _ _ _ => simp at hok
  | known _ hk =>
    obtain rfl := Except.ok.inj hok
    exact (hs.describes hd hk).1
  | published _ _ hdraft hi =>
    obtain rfl := Except.ok.inj hok
    have hf := Registration.finished_draftMessage hdraft
    have hpublished : (registry.publish _).catalog.Sound S registry.config.strictNames :=
      hs.publish hf.sound hf.inProgress
    exact (hpublished.describes hd hi).1

theorem Registered.answer_of_unnamed (h : Registered S registry m outcome)
    (hn : S.messageName m = "") : outcome.answer = .error (.rejected .emptyTypeName) := by
  cases h with
  | unnamed _ => rfl
  | known hn' _ | rejected hn' _ _ | published hn' _ _ _ => exact absurd hn hn'

theorem Registered.exists_fault (h : Registered S registry m outcome) (hn : S.messageName m ≠ "")
    (hfail : ∀ info, outcome.answer ≠ .ok info) :
    ∃ fault trail, Registration.draftMessage S registry.catalog registry.config.strictNames m =
      .error (.rejected fault trail) ∧ outcome.answer = .error (.rejected fault) := by
  cases h with
  | unnamed hn' => exact absurd hn' hn
  | known _ _ | published _ _ _ _ => exact absurd rfl (hfail _)
  | @rejected fault trail _ _ hdraft => exact ⟨fault, trail, hdraft, rfl⟩

theorem Registered.ne_ok (h : Registered S registry m outcome) (hd : S.NamesDistinct)
    (hs : registry.catalog.Sound S registry.config.strictNames)
    (hwf : ¬ S.WellFormedFrom registry.config.strictNames m) (info : Shared MessageInfo) :
    outcome.answer ≠ .ok info :=
  fun hok => hwf (h.wellFormedFrom hd hs hok)

theorem Registered.answer_eq {a b : Outcome (Except Failure (Shared MessageInfo))}
    (ha : Registered S first m a) (hb : Registered S second m b) (hd : S.NamesDistinct)
    (hf : first.catalog.Sound S first.config.strictNames)
    (hs : second.catalog.Sound S second.config.strictNames)
    (hstrict : first.config.strictNames = second.config.strictNames)
    (hwf : ¬ S.WellFormedFrom first.config.strictNames m) : a.answer = b.answer := by
  by_cases hn : S.messageName m = ""
  · rw [ha.answer_of_unnamed hn, hb.answer_of_unnamed hn]
  · obtain ⟨fault, trail, hdraft, hx⟩ := ha.exists_fault hn (ha.ne_ok hd hf hwf)
    obtain ⟨other, otherTrail, hdraft', hy⟩ :=
      hb.exists_fault hn (hb.ne_ok hd hs (hstrict ▸ hwf))
    rw [← hstrict] at hs hdraft'
    have halike : Registration.Alike
        (Draft.Agrees S first.config.strictNames first.catalog second.catalog)
        (Registration.draftMessage S first.catalog first.config.strictNames m)
        (Registration.draftMessage S second.catalog first.config.strictNames m) :=
      Registration.walk_alike hd (.start S) (.start hd hf hs)
    rw [hdraft, hdraft'] at halike
    cases halike with
    | rejected => rw [hx, hy]

/-- The answer to a registration does not depend on what was registered before. -/
theorem register_answer_eq (hd : S.NamesDistinct) (hf : Reachable S first)
    (hs : Reachable S second) (hstrict : first.config.strictNames = second.config.strictNames) :
    (first.register S m).answer.map (·.value) = (second.register S m).answer.map (·.value) := by
  have ha : Registered S first m (first.register S m) := registered_register
  have hb : Registered S second m (second.register S m) := registered_register
  by_cases hwf : S.WellFormedFrom first.config.strictNames m
  · obtain ⟨x, hx⟩ := ha.isOk hwf
    obtain ⟨y, hy⟩ := hb.isOk (hstrict ▸ hwf)
    have hvalue : x.value = y.value :=
      (ha.describes hd hf.sound hx).unique (hb.describes hd hs.sound hy)
    rw [hx, hy]
    exact congrArg Except.ok hvalue
  · rw [ha.answer_eq hb hd hf.sound hs.sound hstrict hwf]

/-- A new registry and one that knows nodes find the same fault in a holder of nodes. -/
theorem register_holder_eq :
    ((create 0 {}).registry.register .tree Schema.tree.holder).answer.map (·.value) =
      (((create 1 {}).registry.perform (.register Schema.tree.node)).registry.register .tree
        Schema.tree.holder).answer.map (·.value) := by
  apply register_answer_eq Schema.tree.namesDistinct (.create 0 {}) (.perform _ (.create 1 {}))
  rw [(step_perform _).config, create_config, create_config]

end Registry
end MessageRegistry
