import Replay.Frame.Prediction

/-!
The state of a slot by its history. A slot keeps only an age, which counts the frames of an action
state, is held below the duration when a transformation moves between ground and air, and starts
anew otherwise. It reaches the duration just when the newest confirmations, one more than the
duration, all belong to the transformation and the newest two are of one action state.
-/

namespace Replay

/-- What an event after a frame confirms: a character and the number of an action state. -/
structure Confirmed where
  character : Nat
  state : Nat

namespace Confirmed

def action (post : Confirmed) : ActionState :=
  .ofRaw post.state post.character

/-- The newest confirmations, as many as given, are of one character and of one of two action
states, and the newest two of them are of the same one. The history has the newest one first. -/
def Held (character ground air frames : Nat) (history : List Confirmed) : Prop :=
  frames ≤ history.length ∧
    (∀ post ∈ history.take frames,
      post.character = character ∧ (post.state = ground ∨ post.state = air)) ∧
    history[0]?.map state = history[1]?.map state

instance (character ground air frames : Nat) (history : List Confirmed) :
    Decidable (Held character ground air frames history) :=
  inferInstanceAs (Decidable (_ ∧ _ ∧ _))

/-- The character that follows from the history of a slot. Zelda turns into Sheik in 44 frames, and
Sheik into Zelda in 37. -/
def predicted : List Confirmed → Int
  | [] => 255
  | newest :: earlier =>
    if newest.character = 19 ∧ Held 19 353 355 44 (newest :: earlier) then 7
    else if newest.character = 7 ∧ Held 7 359 361 37 (newest :: earlier) then 19
    else newest.character

/-- The confirmation is part of a transformation. -/
def Within (t : Transformation) (post : Confirmed) : Prop :=
  post.action = t.ground ∨ post.action = t.air

instance (t : Transformation) : DecidablePred (Within t) :=
  fun _ => inferInstanceAs (Decidable (_ ∨ _))

/-- How many of the newest confirmations in a row are part of a transformation. -/
def streak (t : Transformation) : List Confirmed → Nat
  | [] => 0
  | newest :: earlier => if newest.Within t then streak t earlier + 1 else 0

end Confirmed

/-- The state of a slot with the given history, the newest confirmation first. -/
def SlotState.after : List Confirmed → SlotState
  | [] => .initial
  | newest :: earlier => (after earlier).next newest.character newest.action

theorem Transformation.of?_eq_some {x : Int} {t : Transformation} (h : of? x = some t) :
    (x = zelda ∧ t = ⟨⟨353, some zelda⟩, ⟨355, some zelda⟩, 43, sheik⟩) ∨
      (x = sheik ∧ t = ⟨⟨359, some sheik⟩, ⟨361, some sheik⟩, 36, zelda⟩) := by
  unfold of? at h
  split at h
  · rename_i hx
    cases h
    exact .inl ⟨hx, rfl⟩
  · split at h
    · rename_i hx
      cases h
      exact .inr ⟨hx, rfl⟩
    · cases h

theorem Transformation.duration_pos {x : Int} {t : Transformation} (h : of? x = some t) :
    0 < t.duration := by
  obtain ⟨-, rfl⟩ | ⟨-, rfl⟩ := of?_eq_some h
  all_goals decide

namespace Confirmed

variable {x : Int} {t : Transformation} {post next newest : Confirmed}
  {earlier history : List Confirmed}

theorem action_eq_iff {character state : Int} (h : ¬state < 341) :
    post.action = ⟨state, some character⟩ ↔
      (post.character : Int) = character ∧ (post.state : Int) = state := by
  unfold action ActionState.ofRaw
  split
  · constructor
    · intro he
      cases he
    · intro h
      obtain ⟨-, rfl⟩ := h
      exact absurd ‹_› h
  · rw [ActionState.mk.injEq, Option.some.injEq, and_comm]

theorem within_iff (h : Transformation.of? x = some t) :
    post.Within t ↔ (post.character : Int) = x ∧
      ((post.state : Int) = t.ground.value ∨ (post.state : Int) = t.air.value) := by
  unfold Within
  obtain ⟨rfl, rfl⟩ | ⟨rfl, rfl⟩ := Transformation.of?_eq_some h
  all_goals
    rw [action_eq_iff (by decide), action_eq_iff (by decide), ← and_or_left]

theorem character_of_action {c : Int} (h : post.action.character = some c) :
    c = post.character := by
  unfold action ActionState.ofRaw at h
  split at h
  · cases h
  · exact (Option.some.inj h).symm

theorem Within.character (h : Transformation.of? x = some t) (hw : post.Within t) :
    (post.character : Int) = x :=
  ((within_iff h).mp hw).1

theorem Within.action_eq (h : Transformation.of? x = some t) (hw : post.Within t) :
    post.action = ⟨post.state, some x⟩ := by
  obtain ⟨hc, hs⟩ := (within_iff h).mp hw
  have hs' : ¬(post.state : Int) < 341 := by
    obtain ⟨-, rfl⟩ | ⟨-, rfl⟩ := Transformation.of?_eq_some h
    all_goals
      dsimp only at hs
      omega
  exact (action_eq_iff hs').mpr ⟨hc, rfl⟩

/-- The action state tells the transformation that it is part of. -/
theorem Within.transformation (h : Transformation.of? x = some t) (hw : post.Within t) :
    post.action.transformation? = some t := by
  obtain ⟨rfl, rfl⟩ | ⟨rfl, rfl⟩ := Transformation.of?_eq_some h
  all_goals
    rcases hw with hw | hw
    all_goals
      rw [hw]
      rfl

theorem streak_cons_of_within (hw : newest.Within t) :
    streak t (newest :: earlier) = streak t earlier + 1 :=
  if_pos hw

theorem streak_cons_of_not_within (hw : ¬newest.Within t) : streak t (newest :: earlier) = 0 :=
  if_neg hw

theorem le_streak_iff {n : Nat} :
    n ≤ streak t history ↔ n ≤ history.length ∧ ∀ post ∈ history.take n, post.Within t := by
  induction history generalizing n with
  | nil => simp [streak]
  | cons newest earlier ih =>
    cases n with
    | zero => simp
    | succ n =>
      by_cases hw : newest.Within t
      · rw [streak_cons_of_within hw, List.length_cons, List.take_succ_cons, List.forall_mem_cons,
          Nat.add_le_add_iff_right, Nat.add_le_add_iff_right, ih]
        exact and_congr_right fun _ => (and_iff_right hw).symm
      · rw [streak_cons_of_not_within hw, List.take_succ_cons, List.forall_mem_cons]
        constructor
        · intro hn
          exact absurd hn (Nat.not_succ_le_zero n)
        · intro hn
          exact absurd hn.2.1 hw

end Confirmed

namespace SlotState

open Confirmed

variable {x : Int} {t : Transformation} {next newest : Confirmed} {earlier : List Confirmed}

theorem next_character (last : SlotState) (character : Int) (action : ActionState) :
    (last.next character action).character = character := by
  unfold SlotState.next
  split
  · rfl
  · split
    · split <;> rfl
    · rfl

theorem next_action (last : SlotState) (character : Int) (action : ActionState) :
    (last.next character action).action = action := by
  unfold SlotState.next
  split
  · rfl
  · split
    · split <;> rfl
    · rfl

theorem after_character : (after (newest :: earlier)).character = newest.character :=
  next_character ..

theorem after_action : (after (newest :: earlier)).action = newest.action :=
  next_action ..

/-- The same action state again is a frame older. -/
theorem age_of_same (h : Transformation.of? x = some t) (hw : newest.Within t)
    (hs : next.action = newest.action) :
    (after (newest :: next :: earlier)).age = (after (next :: earlier)).age + 1 := by
  have hn : next.Within t := by rwa [Within, hs]
  have hc : newest.character = next.character := by
    have := hw.character h
    have := hn.character h
    omega
  rw [after, SlotState.next, if_pos]
  rw [after_character, after_action, hs, hc]
  exact ⟨rfl, rfl⟩

/-- Between ground and air the age stays below the duration. -/
theorem age_of_switch (h : Transformation.of? x = some t) (hw : newest.Within t)
    (hn : next.Within t) (hs : next.action ≠ newest.action) :
    (after (newest :: next :: earlier)).age =
      min (t.duration - 1) ((after (next :: earlier)).age + 1) := by
  rw [after, SlotState.next, if_neg fun he => hs (after_action.symm.trans he.2.symm)]
  simp only [hw.transformation h, after_action]
  rw [if_pos]
  rcases hw with hw | hw <;> rcases hn with hn | hn
  · exact absurd (hn.trans hw.symm) hs
  · exact .inl ⟨hw, hn⟩
  · exact .inr ⟨hw, hn⟩
  · exact absurd (hn.trans hw.symm) hs

/-- A transformation starts with age zero. -/
theorem age_of_start (h : Transformation.of? x = some t) (hw : newest.Within t)
    (hs : streak t earlier = 0) : (after (newest :: earlier)).age = 0 := by
  have hlast : ¬((after earlier).action = t.ground ∨ (after earlier).action = t.air) := by
    cases earlier with
    | nil =>
      obtain ⟨-, rfl⟩ | ⟨-, rfl⟩ := Transformation.of?_eq_some h
      all_goals decide
    | cons next earlier =>
      rw [after_action]
      intro hn
      rw [streak_cons_of_within hn] at hs
      exact absurd hs (Nat.succ_ne_zero _)
  rw [after, SlotState.next, if_neg]
  · simp only [hw.transformation h]
    rw [if_neg]
    intro h
    rcases h with ⟨-, hair⟩ | ⟨-, hground⟩
    · exact hlast (.inr hair)
    · exact hlast (.inl hground)
  · intro h
    obtain ⟨-, hsame⟩ := h
    rw [← hsame] at hlast
    exact hlast hw

/-- Within a transformation the age is at most what the streak allows, and is that much unless it
is held below the duration. -/
theorem age_bounds (earlier : List Confirmed) (h : Transformation.of? x = some t)
    (hw : newest.Within t) :
    (after (newest :: earlier)).age ≤ streak t (newest :: earlier) - 1 ∧
      min ((streak t (newest :: earlier) : Int) - 1) (t.duration - 1) ≤
        (after (newest :: earlier)).age := by
  -- A switch may take the age far below the streak, but never below the duration less one.
  induction earlier generalizing newest with
  | nil =>
    rw [age_of_start h hw rfl, streak_cons_of_within hw, streak]
    exact ⟨Int.le_refl 0, Int.min_le_left ..⟩
  | cons next earlier ih =>
    rw [streak_cons_of_within hw]
    by_cases hn : next.Within t
    · obtain ⟨hu, hl⟩ := ih hn
      by_cases hs : next.action = newest.action
      · rw [age_of_same h hw hs]
        omega
      · rw [age_of_switch h hw hn hs]
        omega
    · rw [age_of_start h hw (streak_cons_of_not_within hn), streak_cons_of_not_within hn]
      exact ⟨Int.le_refl 0, Int.min_le_left ..⟩

/-- The age reaches the duration just when the streak is longer than that and has not moved between
ground and air last. -/
theorem duration_le_age_iff (h : Transformation.of? x = some t) (hw : newest.Within t) :
    t.duration ≤ (after (newest :: earlier)).age ↔
      t.duration + 1 ≤ streak t (newest :: earlier) ∧
        earlier.head?.map Confirmed.action = some newest.action := by
  have hd := Transformation.duration_pos h
  cases earlier with
  | nil =>
    rw [age_of_start h hw rfl, streak_cons_of_within hw, streak]
    constructor
    · intro hle
      omega
    · intro h
      obtain ⟨hle, -⟩ := h
      omega
  | cons next earlier =>
    rw [streak_cons_of_within hw, List.head?_cons, Option.map_some, Option.some.injEq]
    by_cases hn : next.Within t
    · obtain ⟨hu, hl⟩ := age_bounds earlier h hn
      by_cases hs : next.action = newest.action
      · rw [age_of_same h hw hs, and_iff_left hs]
        omega
      · rw [age_of_switch h hw hn hs]
        constructor
        · intro hle
          omega
        · intro h
          obtain ⟨-, hs'⟩ := h
          exact absurd hs' hs
    · rw [age_of_start h hw (streak_cons_of_not_within hn), streak_cons_of_not_within hn]
      constructor
      · intro hle
        omega
      · intro h
        obtain ⟨hle, -⟩ := h
        omega

/-- The window of confirmations says what the age says. -/
theorem held_iff (h : Transformation.of? x = some t) {character ground air frames : Nat}
    (hx : (character : Int) = x) (hg : (ground : Int) = t.ground.value)
    (ha : (air : Int) = t.air.value) (hf : (frames : Int) = t.duration + 1) :
    Held character ground air frames (newest :: earlier) ↔
      newest.Within t ∧ t.duration ≤ (after (newest :: earlier)).age := by
  have hd := Transformation.duration_pos h
  have hlong : (frames ≤ (newest :: earlier).length ∧ ∀ post ∈ (newest :: earlier).take frames,
      post.character = character ∧ (post.state = ground ∨ post.state = air)) ↔
        frames ≤ streak t (newest :: earlier) := by
    rw [le_streak_iff]
    refine and_congr_right fun _ => forall₂_congr fun post _ => ?_
    rw [within_iff h, ← hx, ← hg, ← ha]
    omega
  rw [Held, ← and_assoc, hlong]
  by_cases hw : newest.Within t
  · rw [and_iff_right hw, duration_le_age_iff h hw, ← hf, Int.ofNat_le]
    refine and_congr_right fun hle => ?_
    rw [streak_cons_of_within hw] at hle
    cases earlier with
    | nil =>
      rw [streak] at hle
      omega
    | cons next earlier =>
      have hn : next.Within t := Decidable.byContradiction fun hn => by
        rw [streak_cons_of_not_within hn] at hle
        omega
      change some newest.state = some next.state ↔ some next.action = some newest.action
      rw [hw.action_eq h, hn.action_eq h, Option.some.injEq, Option.some.injEq,
        ActionState.mk.injEq, and_iff_left rfl, Int.ofNat_inj, eq_comm]
  · rw [streak_cons_of_not_within hw]
    constructor
    · intro h
      obtain ⟨hle, -⟩ := h
      omega
    · intro h
      obtain ⟨hw', -⟩ := h
      exact absurd hw' hw

theorem predict_of_some (h : Transformation.of? newest.character = some t) :
    (after (newest :: earlier)).predict =
      if newest.Within t ∧ t.duration ≤ (after (newest :: earlier)).age then t.result
      else newest.character := by
  unfold predict
  rw [after_action, after_character]
  split
  · rename_i t' ht
    obtain ⟨c, hc, ht'⟩ := Option.bind_eq_some_iff.mp ht
    obtain rfl := Confirmed.character_of_action hc
    obtain rfl := Option.some.inj (h.symm.trans ht')
    rfl
  · rename_i ht
    rw [if_neg]
    intro h
    obtain ⟨hw, -⟩ := h
    rw [hw.transformation h] at ht
    cases ht

theorem predict_of_none (h : Transformation.of? newest.character = none) :
    (after (newest :: earlier)).predict = newest.character := by
  unfold predict
  rw [after_action, after_character]
  split
  · rename_i t ht
    obtain ⟨c, hc, ht'⟩ := Option.bind_eq_some_iff.mp ht
    obtain rfl := Confirmed.character_of_action hc
    cases h.symm.trans ht'
  · rfl

/-- What the age of a slot predicts follows from the newest confirmations alone. -/
theorem predict_after (history : List Confirmed) : (after history).predict = predicted history := by
  cases history with
  | nil => rfl
  | cons newest earlier =>
    rw [predicted]
    cases ht : Transformation.of? newest.character with
    | none =>
      have hz : newest.character ≠ 19 := fun hc => by rw [hc] at ht; cases ht
      have hs : newest.character ≠ 7 := fun hc => by rw [hc] at ht; cases ht
      rw [predict_of_none ht, if_neg fun h => hz h.1, if_neg fun h => hs h.1]
    | some t =>
      rw [predict_of_some ht]
      obtain ⟨hc, rfl⟩ | ⟨hc, rfl⟩ := Transformation.of?_eq_some ht
      · have hc' : newest.character = 19 := Int.ofNat_inj.mp hc
        have hh : Held 19 353 355 44 (newest :: earlier) ↔ _ := held_iff ht hc.symm rfl rfl rfl
        by_cases hheld : Held 19 353 355 44 (newest :: earlier)
        · rw [if_pos (hh.mp hheld), if_pos ⟨hc', hheld⟩]
          rfl
        · rw [if_neg fun hp => hheld (hh.mpr hp), if_neg fun hp => hheld hp.2, if_neg]
          intro h
          obtain ⟨h7, -⟩ := h
          omega
      · have hc' : newest.character = 7 := Int.ofNat_inj.mp hc
        have hh : Held 7 359 361 37 (newest :: earlier) ↔ _ := held_iff ht hc.symm rfl rfl rfl
        rw [if_neg fun hp : newest.character = 19 ∧ _ => by omega]
        by_cases hheld : Held 7 359 361 37 (newest :: earlier)
        · rw [if_pos (hh.mp hheld), if_pos ⟨hc', hheld⟩]
          rfl
        · rw [if_neg fun hp => hheld (hh.mpr hp), if_neg fun hp => hheld hp.2]

example : predicted (List.replicate 43 ⟨19, 353⟩) = 19 := by decide

example : predicted (List.replicate 44 ⟨19, 353⟩) = 7 := by decide

end SlotState

end Replay
