import Replay.Proofs.SlotOperations

/-!
The states that slots come to by events after frames. An action state that means something for one
character only always goes with that character, and nothing keeps this but that each confirmation
replaces both. So an action state tells the character of the slot, and a rule that looks at action
states alone does what a rule does that compares the characters too.
-/

namespace Replay

namespace Transformation

def all : List Transformation :=
  [zelda, sheik].filterMap of?

/-- The transformation whose variants on the ground and in the air the two action states are, one
each. -/
def between? (action last : ActionState) : Option Transformation :=
  all.find? fun t => action = t.ground ∧ last = t.air ∨ action = t.air ∧ last = t.ground

/-- Such a transformation is that of the character of either action state. -/
theorem between?_eq_some_iff {action last : ActionState} {t : Transformation} :
    between? action last = some t ↔
      action.transformation? = some t ∧
        (action = t.ground ∧ last = t.air ∨ action = t.air ∧ last = t.ground) := by
  constructor
  · intro h
    have hvariants : action = t.ground ∧ last = t.air ∨ action = t.air ∧ last = t.ground := by
      simpa using List.find?_some h
    obtain ⟨x, -, ht⟩ := List.mem_filterMap.mp (List.mem_of_find?_eq_some h)
    refine ⟨?_, hvariants⟩
    obtain ⟨rfl, rfl⟩ | ⟨rfl, rfl⟩ := of?_eq_some ht <;>
      rcases hvariants with ⟨rfl, -⟩ | ⟨rfl, -⟩ <;> rfl
  · intro h
    obtain ⟨ht, hvariants⟩ := h
    obtain ⟨x, -, hx⟩ := Option.bind_eq_some_iff.mp ht
    obtain ⟨rfl, rfl⟩ | ⟨rfl, rfl⟩ := of?_eq_some hx <;>
      rcases hvariants with ⟨rfl, rfl⟩ | ⟨rfl, rfl⟩ <;> rfl

end Transformation

theorem ActionState.character_ofRaw_iff {value character : Int} :
    (ofRaw value character).character = none ↔ value < 341 := by
  unfold ofRaw
  split <;> simp [*]

theorem ActionState.value_ofRaw (value character : Int) : (ofRaw value character).value = value := by
  unfold ofRaw
  split <;> rfl

theorem ActionState.character_ofRaw {value character x : Int}
    (h : (ofRaw value character).character = some x) : x = character := by
  unfold ofRaw at h
  split at h
  · cases h
  · exact (Option.some.inj h).symm

namespace SlotState

/-- The action state has a character just when it is not common to all of them, and then that of the
slot. -/
structure Consistent (state : SlotState) : Prop where
  common : state.action.character = none ↔ state.action.value < 341
  own : 341 ≤ state.action.value → state.action.character = some state.character

theorem consistent_initial : initial.Consistent where
  common := by decide
  own := by decide

/-- Whatever was in a slot, what is confirmed in it is consistent. -/
theorem consistent_next (last : SlotState) (character value : Int) :
    (last.next character (.ofRaw value character)).Consistent where
  common := by rw [next_action, ActionState.character_ofRaw_iff, ActionState.value_ofRaw]
  own := by
    rw [next_action, next_character, ActionState.value_ofRaw]
    intro h
    rw [ActionState.ofRaw, if_neg (by omega)]

theorem age_next {last : SlotState} (h : 0 ≤ last.age) (character : Int) (action : ActionState) :
    0 ≤ (last.next character action).age ∧ (last.next character action).age ≤ last.age + 1 := by
  unfold SlotState.next
  split
  · dsimp only
    omega
  · split
    · rename_i t ht
      obtain ⟨x, -, hx⟩ := Option.bind_eq_some_iff.mp ht
      have hduration := Transformation.duration_pos hx
      split <;> dsimp only <;> omega
    · dsimp only
      omega

/-- The rule of update that compares the characters too, and does not look a transformation up by
its character. -/
def nextSpecified (last : SlotState) (character : Int) (action : ActionState) : SlotState :=
  if character = last.character ∧ action = last.action then
    ⟨character, action, last.age + 1⟩
  else
    match Transformation.between? action last.action with
    | some t =>
      if character = last.character then
        ⟨character, action, min (t.duration - 1) (last.age + 1)⟩
      else ⟨character, action, 0⟩
    | none => ⟨character, action, 0⟩

/-- A consistent slot whose action state is a variant of a transformation has its character. -/
theorem Consistent.character_of_variant {state : SlotState} (h : state.Consistent) {x : Int}
    {t : Transformation} (ht : Transformation.of? x = some t)
    (hvariant : state.action = t.ground ∨ state.action = t.air) : state.character = x := by
  have hown : state.action.character = some x ∧ 341 ≤ state.action.value := by
    obtain ⟨rfl, rfl⟩ | ⟨rfl, rfl⟩ := Transformation.of?_eq_some ht <;>
      rcases hvariant with he | he <;> rw [he] <;> decide
  exact Option.some.inj ((h.own hown.2).symm.trans hown.1)

theorem Consistent.next_eq_nextSpecified {last : SlotState} (h : last.Consistent)
    (character value : Int) :
    last.next character (.ofRaw value character) =
      last.nextSpecified character (.ofRaw value character) := by
  unfold SlotState.next nextSpecified
  by_cases hsame : character = last.character ∧ ActionState.ofRaw value character = last.action
  · rw [if_pos hsame, if_pos hsame]
  · rw [if_neg hsame, if_neg hsame]
    cases hbetween : Transformation.between? (.ofRaw value character) last.action with
    | some t =>
      obtain ⟨ht, hvariants⟩ := Transformation.between?_eq_some_iff.mp hbetween
      obtain ⟨x, hx, htx⟩ := Option.bind_eq_some_iff.mp ht
      have hlast : last.character = x := by
        refine h.character_of_variant htx ?_
        rcases hvariants with ⟨-, hlast⟩ | ⟨-, hlast⟩
        · exact .inr hlast
        · exact .inl hlast
      have hcharacter : character = last.character :=
        (ActionState.character_ofRaw hx).symm.trans hlast.symm
      simp only [ht, if_pos hvariants, if_pos hcharacter]
    | none =>
      cases ht : (ActionState.ofRaw value character).transformation? with
      | none => rfl
      | some t =>
        dsimp only
        rw [if_neg]
        intro hvariants
        rw [Transformation.between?_eq_some_iff.mpr ⟨ht, hvariants⟩] at hbetween
        cases hbetween

/-- Only two characters turn into others, and into each other. -/
theorem Consistent.predict_ne {state : SlotState} (h : state.Consistent)
    (hne : state.predict ≠ state.character) :
    state.character = 19 ∧ state.predict = 7 ∨ state.character = 7 ∧ state.predict = 19 := by
  unfold predict at hne ⊢
  cases ht : state.action.transformation? with
  | none =>
    rw [ht] at hne
    exact absurd rfl hne
  | some t =>
    rw [ht] at hne
    dsimp only at hne ⊢
    by_cases hover : (state.action = t.ground ∨ state.action = t.air) ∧ t.duration ≤ state.age
    · obtain ⟨x, -, hx⟩ := Option.bind_eq_some_iff.mp ht
      rw [if_pos hover, h.character_of_variant hx hover.1]
      obtain ⟨rfl, rfl⟩ | ⟨rfl, rfl⟩ := Transformation.of?_eq_some hx
      · exact .inl ⟨rfl, rfl⟩
      · exact .inr ⟨rfl, rfl⟩
    · rw [if_neg hover] at hne
      exact absurd rfl hne

end SlotState

/-- What is confirmed is an action state as it is read. -/
def Confirmation.IsRead (c : Confirmation) : Prop :=
  ∃ value : Int, c.action = .ofRaw value c.character

/-- How many of the confirmations are for the slot. -/
def Confirmation.received (slot : Fin 8) (confirmations : List Confirmation) : Nat :=
  confirmations.countP fun c => c.id.slot.toOption == some slot

namespace Slots

variable {slots after : Slots} {c : Confirmation} {slot : Fin 8}

/-- One confirmation leaves all slots consistent, and makes at most its own one frame older. -/
theorem consistent_update (hread : c.IsRead) (h : slots.update c.id c.character c.action = .ok after)
    (hconsistent : (slots.get slot).Consistent) (hage : 0 ≤ (slots.get slot).age) :
    (after.get slot).Consistent ∧ 0 ≤ (after.get slot).age ∧
      (after.get slot).age ≤ (slots.get slot).age + Confirmation.received slot [c] := by
  obtain ⟨own, hown, rfl⟩ := update_ok h
  obtain ⟨value, haction⟩ := hread
  by_cases hsame : own = slot
  · subst hsame
    have hreceived : Confirmation.received own [c] = 1 := by
      simp [Confirmation.received, hown, Except.toOption]
    rw [get_set_self, hreceived]
    refine ⟨?_, SlotState.age_next hage c.character c.action⟩
    rw [haction]
    exact SlotState.consistent_next ..
  · rw [get_set_other hsame]
    exact ⟨hconsistent, hage, by omega⟩

/-- Confirmations in a row leave all slots consistent, and no older than they have had of them. -/
theorem consistent_replay {confirmations : List Confirmation}
    (hread : ∀ c ∈ confirmations, c.IsRead) (h : slots.replay confirmations = .ok after)
    (hconsistent : (slots.get slot).Consistent) (hage : 0 ≤ (slots.get slot).age) :
    (after.get slot).Consistent ∧ 0 ≤ (after.get slot).age ∧
      (after.get slot).age ≤
        (slots.get slot).age + Confirmation.received slot confirmations := by
  induction confirmations generalizing slots with
  | nil =>
    cases h
    exact ⟨hconsistent, hage, by omega⟩
  | cons c confirmations ih =>
    obtain ⟨mid, hmid, hrest⟩ : ∃ mid, slots.update c.id c.character c.action = .ok mid ∧
        Slots.replay mid confirmations = .ok after := Except.bind_eq_ok h
    obtain ⟨hconsistent', hage', hle'⟩ :=
      consistent_update (hread c List.mem_cons_self) hmid hconsistent hage
    obtain ⟨hconsistent'', hage'', hle''⟩ :=
      ih (fun c hc => hread c (List.mem_cons_of_mem _ hc)) hrest hconsistent' hage'
    have hreceived : Confirmation.received slot (c :: confirmations) =
        Confirmation.received slot [c] + Confirmation.received slot confirmations := by
      rw [Confirmation.received, ← List.singleton_append, List.countP_append]
      rfl
    exact ⟨hconsistent'', hage'', by omega⟩

end Slots

/-- The action state of an event after a frame goes with its character. -/
theorem Post.state_of_ofPayload {slots after : Slots} {payload : Bytes} {post : FrameEvent Post}
    (h : Post.ofPayload slots payload = .ok (post, after)) :
    post.event.state = .ofRaw (stateOfPayload payload) post.event.character := by
  obtain ⟨u, hread⟩ := Reader.onBytes_ok (ofPayload_eq_ok_iff.mp h).1
  obtain ⟨-, hcharacter, hstate⟩ := reader_ok hread
  rw [hstate, hcharacter]
  rfl

namespace Operation

/-- An event after a frame confirms its action state as it is read. -/
theorem isRead_of_framePost {slots : Slots} {payload : Bytes} {c : Confirmation}
    (h : (framePost payload).confirmation? ((framePost payload).run slots) = some c) :
    c.IsRead := by
  have hrun := run_framePost payload slots
  rcases hout : (framePost payload).run slots with ⟨result, t⟩
  rw [hout] at h hrun
  cases hpost : Post.ofPayload slots payload with
  | error e =>
    rw [hpost] at hrun
    cases hrun
    cases h
  | ok decoded =>
    obtain ⟨post, after⟩ := decoded
    rw [hpost] at hrun
    cases hrun
    cases h
    exact ⟨Post.stateOfPayload payload, Post.state_of_ofPayload hpost⟩

theorem isRead_of_framePosts {slots : Slots} {payloads : List Bytes} :
    ∀ c ∈ confirmations slots (payloads.map framePost), c.IsRead := by
  induction payloads generalizing slots with
  | nil =>
    intro c hc
    cases hc
  | cons payload payloads ih =>
    intro c hc
    rw [List.map_cons, confirmations, List.mem_append, Option.mem_toList] at hc
    rcases hc with hc | hc
    · exact isRead_of_framePost hc
    · exact ih c hc

end Operation

namespace Slots

/-- Fresh slots after some events after frames, of which some may fail. -/
def afterPosts (payloads : List Bytes) : Slots :=
  Operation.slotsAfter .initial (payloads.map .framePost)

/-- How many of the events the slot has received. -/
def postsReceived (slot : Fin 8) (payloads : List Bytes) : Nat :=
  Confirmation.received slot (Operation.confirmations .initial (payloads.map .framePost))

/-- Consistent slots. After any events after frames the action state of each slot has a character
just when its number is not common to all characters, and then that of the slot; and its age is no
more than the events that the slot has received. So for each confirmation that may follow, the
update is the one that compares the characters as well, and the prediction is another character than
that of the slot only where Zelda turns into Sheik or Sheik into Zelda. -/
theorem afterPosts_consistent (payloads : List Bytes) (slot : Fin 8) :
    (((afterPosts payloads).get slot).action.character = none ↔
      ((afterPosts payloads).get slot).action.value < 341) ∧
    (341 ≤ ((afterPosts payloads).get slot).action.value →
      ((afterPosts payloads).get slot).action.character =
        some ((afterPosts payloads).get slot).character) ∧
    0 ≤ ((afterPosts payloads).get slot).age ∧
    ((afterPosts payloads).get slot).age ≤ postsReceived slot payloads ∧
    (∀ character value : Int,
      ((afterPosts payloads).get slot).next character (.ofRaw value character) =
        ((afterPosts payloads).get slot).nextSpecified character (.ofRaw value character)) ∧
    (∀ payload post after, Post.ofPayload (afterPosts payloads) payload = .ok (post, after) →
      post.id.slot = .ok slot →
        after.get slot = ((afterPosts payloads).get slot).nextSpecified post.event.character
          post.event.state) ∧
    (((afterPosts payloads).get slot).predict ≠ ((afterPosts payloads).get slot).character →
      ((afterPosts payloads).get slot).character = 19 ∧
          ((afterPosts payloads).get slot).predict = 7 ∨
        ((afterPosts payloads).get slot).character = 7 ∧
          ((afterPosts payloads).get slot).predict = 19) := by
  have hconsistent₀ : (Slots.initial.get slot).Consistent :=
    get_initial slot ▸ SlotState.consistent_initial
  obtain ⟨hconsistent, hage, hreceived⟩ := consistent_replay Operation.isRead_of_framePosts
    (Operation.replay_confirmations (payloads.map .framePost) .initial) hconsistent₀
    (get_initial slot ▸ Int.le_refl 0)
  rw [get_initial] at hreceived
  have hage0 : SlotState.initial.age = 0 := rfl
  refine ⟨hconsistent.common, hconsistent.own, hage, ?_, hconsistent.next_eq_nextSpecified, ?_,
    hconsistent.predict_ne⟩
  · rw [hage0, Int.zero_add] at hreceived
    exact hreceived
  · intro payload post after hpost hslot
    obtain ⟨own, hown, rfl⟩ := update_ok (Post.ofPayload_eq_ok_iff.mp hpost).2
    cases hown.symm.trans hslot
    rw [get_set_self, Post.state_of_ofPayload hpost]
    exact hconsistent.next_eq_nextSpecified _ _

/-- After the events of a whole transformation the prediction is Sheik, though the slot has Zelda. -/
theorem afterPosts_consistent_turning :
    ((afterPosts (List.replicate 44 Run.turning.payload)).get 0).predict = 7 ∧
      ((afterPosts (List.replicate 44 Run.turning.payload)).get 0).character = 19 := by
  obtain ⟨-, -, -, -, -, -, hpredict⟩ :=
    afterPosts_consistent (List.replicate 44 Run.turning.payload) 0
  have hpredicted : ((afterPosts (List.replicate 44 Run.turning.payload)).get 0).predict = 7 := by
    decide +kernel
  have hne : ((afterPosts (List.replicate 44 Run.turning.payload)).get 0).predict ≠
      ((afterPosts (List.replicate 44 Run.turning.payload)).get 0).character := by
    decide +kernel
  rcases hpredict hne with ⟨hcharacter, -⟩ | ⟨-, hother⟩
  · exact ⟨hpredicted, hcharacter⟩
  · rw [hpredicted] at hother
    cases hother

end Slots

end Replay
