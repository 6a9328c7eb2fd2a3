import MessageRegistry.Proofs.Registry.Repetition
import MessageRegistry.Registry.Concurrent

/-!
Threads that register the same message type at once. A registration takes effect in its last
section. Main statement: however the sections interleave, the registry, the replies and the reports
are those of as many registrations one after the other, and at most one of them publishes.
-/
namespace MessageRegistry

namespace Concurrent
variable {S : Schema} {m : S.Message} {registry : Registry} {thread : Thread}
variable {state next : State} {before later : List Thread}

/-- What a thread has seen still holds. A miss may have become stale. -/
def Thread.Fits (m : S.Message) (registry : Registry) : Thread → Prop
  | .found info =>
    S.messageName m ≠ "" ∧ registry.catalog.message? (S.messageName m) = some info
  | .missed => S.messageName m ≠ ""
  | .ready | .finished _ => True

/-- A section finishes its thread by a whole registration, as of now, or it changes nothing but the
thread. -/
theorem Thread.advance_cases (h : thread.Fits m registry) :
    thread.reply? = none ∧
        thread.advance S m registry = (registry.register S m).map .finished ∨
      ∃ moved : Thread, thread.advance S m registry = ⟨moved, [], registry⟩ ∧
        moved.reply? = thread.reply? ∧ moved.Fits m registry := by
  cases thread with
  | ready =>
    by_cases hn : S.messageName m = ""
    · refine Or.inl ⟨rfl, ?_⟩
      rw [Registry.register_of_unnamed hn]
      exact if_pos hn
    · right
      cases hk : registry.catalog.message? (S.messageName m) with
      | some info => exact ⟨.found info, by simp [advance, hn, hk], rfl, hn, hk⟩
      | none => exact ⟨.missed, by simp [advance, hn, hk], rfl, hn⟩
  | found info =>
    refine Or.inl ⟨rfl, ?_⟩
    rw [Registry.register_of_known h.1 h.2]
    rfl
  | missed =>
    refine Or.inl ⟨rfl, ?_⟩
    rw [← Registry.registerExclusively_eq_register h]
    rfl
  | finished reply => exact Or.inr ⟨.finished reply, rfl, rfl, trivial⟩

/-- A registration by one thread takes nothing from what another has seen. -/
theorem Thread.Fits.register (h : thread.Fits m registry) :
    thread.Fits m (registry.register S m).registry := by
  cases thread with
  | ready | finished _ => trivial
  | missed => exact h
  | found info =>
    refine ⟨h.1, ?_⟩
    rw [Registry.catalog_register_of_known h.2]
    exact h.2

/-- What one step does to a state: nothing, or it moves a thread on, or it finishes a thread by a
registration. -/
inductive Stepped (m : S.Message) (state : State) : State → Prop
  | idle : Stepped m state state
  | move {before later : List Thread} {thread moved : Thread}
      (split : state.threads = before ++ thread :: later) (reply : moved.reply? = thread.reply?)
      (fits : moved.Fits m state.registry) :
      Stepped m state { state with threads := before ++ moved :: later }
  | call {before later : List Thread} {thread : Thread}
      (split : state.threads = before ++ thread :: later) (reply : thread.reply? = none) :
      Stepped m state
        { registry := (state.registry.register S m).registry
          threads := before ++ .finished (state.registry.register S m).answer :: later
          events := state.events ++ (state.registry.register S m).events }

theorem stepped_step (hf : ∀ thread ∈ state.threads, thread.Fits m state.registry)
    (position : Nat) : Stepped m state (state.step S m position) := by
  unfold State.step
  cases ht : state.threads[position]? with
  | none => exact .idle
  | some thread =>
    obtain ⟨hlt, rfl⟩ := List.getElem?_eq_some_iff.mp ht
    have hsplit : state.threads = state.threads.take position ++
        state.threads[position] :: state.threads.drop (position + 1) := by
      rw [← List.drop_eq_getElem_cons hlt, List.take_append_drop]
    have hset : ∀ moved : Thread, state.threads.set position moved =
        state.threads.take position ++ moved :: state.threads.drop (position + 1) := by
      intro moved
      rw [List.set_eq_take_append_cons_drop, if_pos hlt]
    simp only [hset]
    rcases Thread.advance_cases (hf _ (List.getElem_mem hlt)) with ⟨hr, ha⟩ | ⟨moved, ha, hr, hm⟩
    · rw [ha]
      exact .call hsplit hr
    · rw [ha]
      simp only [List.append_nil]
      exact .move hsplit hr hm

theorem Stepped.fits (h : Stepped m state next)
    (hf : ∀ thread ∈ state.threads, thread.Fits m state.registry) :
    ∀ thread ∈ next.threads, thread.Fits m next.registry := by
  cases h with
  | idle => exact hf
  | move split _ fits =>
    simp only [split, List.forall_mem_append, List.forall_mem_cons] at hf ⊢
    exact ⟨hf.1, fits, hf.2.2⟩
  | call split _ =>
    simp only [split, List.forall_mem_append, List.forall_mem_cons] at hf ⊢
    exact ⟨fun thread ht => (hf.1 thread ht).register, trivial,
      fun thread ht => (hf.2.2 thread ht).register⟩

/-- The threads that have finished did so by registrations one after the other. -/
structure Serial (m : S.Message) (registry : Registry) (threadCount : Nat) (state : State) :
    Prop where
  fits : ∀ thread ∈ state.threads, thread.Fits m state.registry
  size : state.threads.length = threadCount
  replies : ∀ reply ∈ state.replies, reply = (registry.register S m).answer
  registry_eq : state.registry = registry.after (Registry.calls m state.replies.length)
  events_eq : state.events = registry.reports (Registry.calls m state.replies.length)

theorem serial_start (m : S.Message) (registry : Registry) (threadCount : Nat) :
    Serial m registry threadCount (.start registry threadCount) := by
  have hnone : (State.start registry threadCount).replies = [] := by
    simp [State.start, State.replies, Thread.reply?]
  constructor
  · intro thread ht
    rw [List.eq_of_mem_replicate ht]
    trivial
  · exact List.length_replicate
  · simp [hnone]
  all_goals rw [hnone]; rfl

section Split
variable (split : state.threads = before ++ thread :: later)
include split

theorem State.replies_of_split :
    state.replies = before.filterMap (·.reply?) ++ thread.reply?.toList ++
      later.filterMap (·.reply?) := by
  rw [replies, split, List.filterMap_append, List.filterMap_cons]
  cases thread.reply? <;> simp

theorem State.replies_of_finished (hopen : thread.reply? = none) (registry : Registry)
    (events : List Event) (reply : Reply) :
    (State.mk registry (before ++ .finished reply :: later) events).replies.length =
        state.replies.length + 1 ∧
      ∀ other ∈ (State.mk registry (before ++ .finished reply :: later) events).replies,
        other = reply ∨ other ∈ state.replies := by
  rw [replies_of_split split, replies_of_split rfl, hopen, Thread.reply?]
  constructor
  · simp only [Option.toList_some, Option.toList_none, List.length_append, List.length_singleton,
      List.length_nil]
    omega
  · intro other ho
    simp only [Option.toList_some, Option.toList_none, List.mem_append, List.mem_singleton,
      List.append_nil] at ho ⊢
    rcases ho with (ho | ho) | ho
    · exact Or.inr (Or.inl ho)
    · exact Or.inl ho
    · exact Or.inr (Or.inr ho)

end Split

theorem Stepped.serial {threadCount : Nat} (hs : Stepped m state next)
    (h : Serial m registry threadCount state) : Serial m registry threadCount next := by
  have hfits := hs.fits h.fits
  have hsize := h.size
  cases hs with
  | idle => exact h
  | @move before later thread moved split reply fits =>
    have hsame : ({ state with threads := before ++ moved :: later } : State).replies =
        state.replies := by
      rw [State.replies_of_split rfl, State.replies_of_split split, reply]
    rw [split] at hsize
    refine ⟨hfits, by simpa using hsize, ?_, ?_, ?_⟩ <;> rw [hsame]
    · exact h.replies
    · exact h.registry_eq
    · exact h.events_eq
  | call split reply =>
    obtain ⟨hcount, hnew⟩ := State.replies_of_finished split reply _ _ _
    have hanswer : (state.registry.register S m).answer = (registry.register S m).answer := by
      rw [h.registry_eq, Registry.answer_register_after_calls]
    rw [split] at hsize
    refine ⟨hfits, by simpa using hsize, ?_, ?_, ?_⟩
    · intro other ho
      rcases hnew other ho with rfl | hold
      · exact hanswer
      · exact h.replies other hold
    · rw [hcount, Registry.after_calls_succ, ← h.registry_eq]
    · rw [hcount, Registry.reports_calls_succ, ← h.registry_eq, ← h.events_eq]

theorem serial_run {threadCount : Nat} (h : Serial m registry threadCount state)
    (schedule : List Nat) : Serial m registry threadCount (state.run S m schedule) :=
  List.foldlRecOn schedule _ h fun _ hs position _ => (stepped_step hs.fits position).serial hs

def State.Finished (state : State) : Prop := ∀ thread ∈ state.threads, thread.reply?.isSome = true

theorem State.Finished.length_replies (h : state.Finished) :
    state.replies.length = state.threads.length := by
  rw [replies, List.length_filterMap_eq_countP, List.countP_eq_length]
  exact h

def Thread.remaining : Thread → Nat
  | .ready => 2
  | .found _ | .missed => 1
  | .finished _ => 0

theorem Thread.remaining_eq_zero_iff : thread.remaining = 0 ↔ thread.reply?.isSome = true := by
  cases thread <;> simp [remaining, reply?]

theorem Thread.remaining_advance (S : Schema) (m : S.Message) (registry : Registry)
    (thread : Thread) :
    (thread.advance S m registry).answer.remaining ≤ thread.remaining - 1 := by
  cases thread with
  | ready =>
    by_cases hn : S.messageName m = ""
    · simp [advance, hn, remaining]
    · cases hk : registry.catalog.message? (S.messageName m) <;> simp [advance, hn, hk, remaining]
  | found _ | missed | finished _ => simp [advance, remaining, Outcome.map]

def State.remainingAt (state : State) (position : Nat) : Nat :=
  (state.threads[position]?.map Thread.remaining).getD 0

theorem State.remainingAt_step (S : Schema) (m : S.Message) (state : State) (turn position : Nat) :
    (state.step S m turn).remainingAt position ≤
      state.remainingAt position - if turn = position then 1 else 0 := by
  unfold step
  cases ht : state.threads[turn]? with
  | none =>
    by_cases hp : turn = position
    · subst hp
      simp [remainingAt, ht]
    · simp [hp]
  | some thread =>
    obtain ⟨hlt, rfl⟩ := List.getElem?_eq_some_iff.mp ht
    by_cases hp : turn = position
    · subst hp
      simpa [remainingAt, hlt] using state.threads[turn].remaining_advance S m state.registry
    · simp [remainingAt, hp, List.getElem?_set_ne]

theorem State.remainingAt_run (S : Schema) (m : S.Message) (state : State) (schedule : List Nat)
    (position : Nat) :
    (state.run S m schedule).remainingAt position ≤
      state.remainingAt position - schedule.count position := by
  induction schedule generalizing state with
  | nil => simp [run]
  | cons turn schedule ih =>
    have hstep := state.remainingAt_step S m turn position
    have hrest : ((state.step S m turn).run S m schedule).remainingAt position ≤
        (state.step S m turn).remainingAt position - schedule.count position := ih _
    have hcount : (turn :: schedule).count position =
        schedule.count position + if turn = position then 1 else 0 := by
      simp [List.count_cons]
    rw [hcount]
    exact Nat.le_trans hrest (by omega)

theorem State.remainingAt_start (registry : Registry) (threadCount position : Nat) :
    (State.start registry threadCount).remainingAt position ≤ 2 := by
  by_cases h : position < threadCount <;>
    simp [remainingAt, start, h, Thread.remaining]

theorem finished_run {threadCount : Nat} {schedule : List Nat}
    (h : ∀ position < threadCount, 2 ≤ schedule.count position) :
    ((State.start registry threadCount).run S m schedule).Finished := by
  have hsize := (serial_run (serial_start m registry threadCount) schedule).size
  intro thread ht
  obtain ⟨position, hlt, rfl⟩ := List.mem_iff_getElem.mp ht
  have hturns := h position (hsize ▸ hlt)
  have hstart := State.remainingAt_start registry threadCount position
  have hrun := (State.start registry threadCount).remainingAt_run S m schedule position
  rw [State.remainingAt, List.getElem?_eq_getElem hlt] at hrun
  apply Thread.remaining_eq_zero_iff.mp
  simp only [Option.map_some, Option.getD_some] at hrun
  omega

/-- The positions of the threads whose sections change the catalog, in the order of time. -/
def State.publishers (S : Schema) (m : S.Message) : State → List Nat → List Nat
  | _, [] => []
  | state, position :: schedule =>
    let next := state.step S m position
    if next.registry.catalog = state.registry.catalog then publishers S m next schedule
    else position :: publishers S m next schedule

theorem Stepped.catalog_eq_of_known {info : Shared MessageInfo} (h : Stepped m state next)
    (hk : state.registry.catalog.message? (S.messageName m) = some info) :
    next.registry.catalog = state.registry.catalog := by
  cases h with
  | idle | move _ _ _ => rfl
  | call _ _ => exact Registry.catalog_register_of_known hk

theorem Stepped.message?_of_catalog_ne (h : Stepped m state next)
    (hne : next.registry.catalog ≠ state.registry.catalog) :
    ∃ info, next.registry.catalog.message? (S.messageName m) = some info := by
  cases h with
  | idle | move _ _ _ => exact absurd rfl hne
  | call _ _ => exact Registry.message?_of_catalog_register_ne hne

theorem publishers_eq_nil {info : Shared MessageInfo} (schedule : List Nat)
    (hf : ∀ thread ∈ state.threads, thread.Fits m state.registry)
    (hk : state.registry.catalog.message? (S.messageName m) = some info) :
    state.publishers S m schedule = [] := by
  induction schedule generalizing state with
  | nil => rfl
  | cons position schedule ih =>
    have hs : Stepped m state (state.step S m position) := stepped_step hf position
    have hsame := hs.catalog_eq_of_known hk
    rw [State.publishers, if_pos hsame]
    exact ih (hs.fits hf) (hsame ▸ hk)

theorem length_publishers_le_one (schedule : List Nat)
    (hf : ∀ thread ∈ state.threads, thread.Fits m state.registry) :
    (state.publishers S m schedule).length ≤ 1 := by
  induction schedule generalizing state with
  | nil => exact Nat.zero_le 1
  | cons position schedule ih =>
    have hs : Stepped m state (state.step S m position) := stepped_step hf position
    rw [State.publishers]
    split
    · exact ih (hs.fits hf)
    · rename_i hne
      obtain ⟨info, hk⟩ := hs.message?_of_catalog_ne hne
      rw [publishers_eq_nil schedule (hs.fits hf) hk]
      exact Nat.le_refl 1

/-- However the sections of the threads interleave, at most one of them publishes, and two turns
finish a thread. When all threads have finished, their replies are one object or one failure, and
replies, reports and registry are what as many calls leave one after the other. -/
theorem interleaving_is_sequential (m : S.Message) (registry : Registry) (threadCount : Nat)
    (schedule : List Nat) :
    ((State.start registry threadCount).publishers S m schedule).length ≤ 1 ∧
    ((∀ position < threadCount, 2 ≤ schedule.count position) →
      ((State.start registry threadCount).run S m schedule).Finished) ∧
    (((State.start registry threadCount).run S m schedule).Finished →
      ∃ reply,
        ((State.start registry threadCount).run S m schedule).replies =
          List.replicate threadCount reply ∧
        (registry.run (Registry.calls m threadCount)).map (·.answer) =
          List.replicate threadCount (.ofExcept .message reply) ∧
        ((State.start registry threadCount).run S m schedule).registry =
          registry.after (Registry.calls m threadCount) ∧
        ((State.start registry threadCount).run S m schedule).events =
          registry.reports (Registry.calls m threadCount)) := by
  have hstart : Serial m registry threadCount (.start registry threadCount) :=
    serial_start m registry threadCount
  refine ⟨length_publishers_le_one schedule hstart.fits, finished_run, fun hfinished => ?_⟩
  have hrun := serial_run hstart schedule
  have hcount : ((State.start registry threadCount).run S m schedule).replies.length =
      threadCount := hfinished.length_replies.trans hrun.size
  refine ⟨(registry.register S m).answer, ?_, Registry.answers_run_calls registry m threadCount,
    ?_, ?_⟩
  · exact List.eq_replicate_iff.mpr ⟨hcount, hrun.replies⟩
  · rw [hrun.registry_eq, hcount]
  · rw [hrun.events_eq, hcount]

/-- Three threads miss the nodes before the second of them publishes them. -/
theorem interleaving_is_sequential_node :
    (∀ position < 3, 2 ≤ [0, 1, 2, 1, 0, 2].count position) ∧
    ∃ reply,
      ((State.start (Registry.create 0 {}).registry 3).run .tree Schema.tree.node
        [0, 1, 2, 1, 0, 2]).replies = [reply, reply, reply] ∧
      ((State.start (Registry.create 0 {}).registry 3).run .tree Schema.tree.node
        [0, 1, 2, 1, 0, 2]).registry =
          (Registry.create 0 {}).registry.after (Registry.calls Schema.tree.node 3) := by
  obtain ⟨_, hfinished, hsequential⟩ := interleaving_is_sequential Schema.tree.node
    (Registry.create 0 {}).registry 3 [0, 1, 2, 1, 0, 2]
  have hturns : ∀ position < 3, 2 ≤ [0, 1, 2, 1, 0, 2].count position := by decide
  obtain ⟨reply, hreplies, _, hregistry, _⟩ := hsequential (hfinished hturns)
  exact ⟨hturns, reply, hreplies, hregistry⟩

end Concurrent
end MessageRegistry
