import Replay.Proofs.Offsets
import Replay.Proofs.PackedFlags
import Replay.Proofs.PayloadLength

/-!
Frame payloads read at offsets. Each field of an event before or after a frame is the number at an
offset of its own. What stands where, how long the payload is and in which order it is checked say
what comes of any payload, also of one that is wrong in several ways at once.
-/

namespace Replay

open Reader

theorem Decoder.ofChecked_eq_pure {σ α : Type} [Feed σ] (a : α) :
    (ofChecked (.ok a) : Decoder σ α) = pure a := rfl

namespace Binary64

theorem isZero_iff {x : Binary64} : x.isZero = true ↔ x.exponent = 0 ∧ x.fraction = 0 := by
  rw [isZero, Bool.and_eq_true, beq_iff_eq, beq_iff_eq]

theorem isNaN_iff {x : Binary64} : x.isNaN = true ↔ x.exponent = 2047 ∧ ¬x.fraction = 0 := by
  rw [isNaN, Bool.and_eq_true, beq_iff_eq, bne_iff_ne]

theorem negative_ofSingle (word : Nat) :
    (ofSingle word).negative = (word / 0x80000000 % 2 == 1) := by
  rw [ofSingle]
  split
  · rfl
  · split
    · rfl
    · split <;> rfl

/-- Widening makes a zero of nothing but a zero, and a NaN of nothing but a NaN. -/
theorem ofSingle_kind (word : Nat) :
    ((ofSingle word).isZero = true ↔ word % 0x80000000 = 0) ∧
      ((ofSingle word).isNaN = true ↔ 0x7F800000 < word % 0x80000000) := by
  have hword : word % 0x80000000 = 0x800000 * (word / 0x800000 % 0x100) + word % 0x800000 := by
    omega
  have hlog : word % 0x800000 ≠ 0 → (word % 0x800000).log2 < 23 := fun h0 =>
    (Nat.log2_lt h0).mpr (Nat.mod_lt _ (by decide))
  have he : word / 0x800000 % 0x100 < 0x100 := Nat.mod_lt _ (by decide)
  have hf : word % 0x800000 < 0x800000 := Nat.mod_lt _ (by decide)
  rw [isZero_iff, isNaN_iff, hword, ofSingle]
  generalize word / 0x800000 % 0x100 = e, word % 0x800000 = f at *
  clear hword
  split
  · dsimp only
    omega
  · split
    · dsimp only
      omega
    · split
      · dsimp only
        omega
      · dsimp only
        omega

end Binary64

namespace Direction

/-- A 32-bit word of a number without a direction. But for its sign it is zero, or it lies above the
infinity and is a NaN. -/
def IsNone (word : Nat) : Prop :=
  word % 0x80000000 = 0 ∨ 0x7F800000 < word % 0x80000000

instance (word : Nat) : Decidable (IsNone word) :=
  inferInstanceAs (Decidable (_ ∨ _))

/-- The direction by the sign of a 32-bit word. -/
def ofWord (word : Nat) : Direction :=
  if word < 0x80000000 then .right else .left

theorem ofSign_eq (x : Binary64) :
    ofSign x = if x.isZero = true ∨ x.isNaN = true then .error (.direction x)
      else .ok (if x.negative = true then .left else .right) := by
  unfold ofSign Binary64.isBelowZero Binary64.isAboveZero
  cases x.negative <;> cases x.isZero <;> cases x.isNaN <;> rfl

theorem ofSign_f32At (payload : Bytes) (offset : Nat) :
    ofSign (payload.f32At offset) =
      if IsNone (payload.u32At offset) then .error (.direction (payload.f32At offset))
      else .ok (ofWord (payload.u32At offset)) := by
  have hword := payload.u32At_lt offset
  obtain ⟨hzero, hnan⟩ := Binary64.ofSingle_kind (payload.u32At offset)
  have hnegative : (payload.f32At offset).negative = true ↔
      ¬payload.u32At offset < 0x80000000 := by
    rw [Bytes.f32At, Binary64.negative_ofSingle, beq_iff_eq]
    omega
  rw [ofSign_eq]
  refine if_congr (or_congr hzero hnan) rfl (congrArg Except.ok ?_)
  rw [ofWord, if_congr hnegative rfl rfl, ite_not]

end Direction

namespace FrameId

/-- The slot of a port up to three. The leader's is in front of the follower's. -/
def slotAt (payload : Bytes) (h : ¬3 < payload.u8At 4) : Fin 8 :=
  ⟨2 * payload.u8At 4 + if payload.u8At 5 = 0 then 0 else 1, by split <;> omega⟩

theorem slot_of_lt {payload : Bytes} (h : 3 < payload.u8At 4) :
    (ofPayload payload).slot = .error (.port (payload.u8At 4)) :=
  dif_neg fun hport => absurd hport.2 (Int.not_lt.mpr (Int.ofNat_le.mpr h))

theorem slot_of_not_lt {payload : Bytes} (h : ¬3 < payload.u8At 4) :
    (ofPayload payload).slot = .ok (slotAt payload h) := by
  have hport : 0 ≤ (ofPayload payload).port ∧ (ofPayload payload).port < 4 :=
    ⟨Int.natCast_nonneg _, Int.ofNat_lt.mpr (Nat.lt_succ_of_le (Nat.le_of_not_lt h))⟩
  rw [slot, dif_pos hport]
  refine congrArg Except.ok (Fin.ext ?_)
  change 2 * payload.u8At 4 + (payload.u8At 5 != 0).toNat = _
  rw [slotAt]
  by_cases h5 : payload.u8At 5 = 0 <;> simp [h5]

end FrameId

namespace Slots

/-- What the slots say about a frame payload depends on its port alone, and on its follower byte. -/
theorem predict_ofPayload (slots : Slots) (payload : Bytes) :
    slots.predict (.ofPayload payload) =
      if h : 3 < payload.u8At 4 then .error (.port (payload.u8At 4))
      else .ok slots[FrameId.slotAt payload h].predict := by
  rw [predict, find]
  split
  · rw [FrameId.slot_of_lt ‹_›]
    rfl
  · rw [FrameId.slot_of_not_lt ‹_›]
    rfl

theorem update_ofPayload (slots : Slots) (payload : Bytes) (character : Int)
    (action : ActionState) :
    slots.update (.ofPayload payload) character action =
      if h : 3 < payload.u8At 4 then .error (.port (payload.u8At 4))
      else .ok (slots.set (FrameId.slotAt payload h)
        (slots[FrameId.slotAt payload h].next character action)) := by
  rw [update]
  split
  · rw [FrameId.slot_of_lt ‹_›]
    rfl
  · rw [FrameId.slot_of_not_lt ‹_›]
    rfl

end Slots

namespace Pre

/-- The event of a payload by the numbers at its offsets, for a fighter of the predicted character. -/
def atOffsets (character : Int) (payload : Bytes) : FrameEvent Pre where
  id := .ofPayload payload
  event := {
    index := payload.i32At 0
    randomSeed := payload.u32At 6
    state := {
      value := payload.u16At 10
      character := if payload.u16At 10 < 341 then none else some character }
    position := ⟨payload.f32At 12, payload.f32At 16⟩
    direction := .ofWord (payload.u32At 20)
    joystick := ⟨payload.f32At 24, payload.f32At 28⟩
    cstick := ⟨payload.f32At 32, payload.f32At 36⟩
    triggers := ⟨payload.f32At 40, ⟨payload.f32At 50, payload.f32At 54⟩⟩
    buttons := ⟨payload.u32At 44, payload.u16At 48⟩
    additions := payload.past 58 ⟨payload.u8At 58, payload.past 59 (payload.f32At 59)⟩ }

/-- What comes of a payload, in the order in which it is checked. -/
def ofOffsets (slots : Slots) (payload : Bytes) : Except ErrorClass (FrameEvent Pre) :=
  if payload.length < 6 then .error .truncatedInput
  else if h : 3 < payload.u8At 4 then .error .invalidDiscriminant
  else if payload.length < 58 then .error .truncatedInput
  else if Direction.IsNone (payload.u32At 20) then .error .invalidDiscriminant
  else if payload.length ∈ [60, 61, 62] then .error .truncatedInput
  else .ok (atOffsets slots[FrameId.slotAt payload h].predict payload)

theorem Base.valueOf_layout (payload : Bytes) :
    Base.layout.valueOf (payload.drop 6) = {
      randomSeed := payload.u32At 6
      state := payload.u16At 10
      position := ⟨payload.f32At 12, payload.f32At 16⟩
      direction := payload.f32At 20
      joystick := ⟨payload.f32At 24, payload.f32At 28⟩
      cstick := ⟨payload.f32At 32, payload.f32At 36⟩
      triggerLogical := payload.f32At 40
      buttons := ⟨payload.u32At 44, payload.u16At 48⟩
      triggers := ⟨payload.f32At 50, payload.f32At 54⟩ } := by
  simp [Base.layout]

theorem Additions.findsAt (payload : Bytes) :
    reader.ifAny.FindsAt payload 58 (payload.length ∉ [60, 61, 62])
      (payload.past 58 ⟨payload.u8At 58, payload.past 59 (payload.f32At 59)⟩) := by
  have hfinds : reader.ifAny.FindsAt payload 58
      (payload.length ≤ 58 ∨ 59 ≤ payload.length ∧ (payload.length ≤ 59 ∨ 63 ≤ payload.length))
      (payload.past 58 ⟨payload.u8At 58, payload.past 59 (payload.f32At 59)⟩) :=
    .ifAny fun h58 => .extended (Nat.le_of_lt h58) rfl (by simp [rawAnalogLayout]) fun h59 =>
      .read (Nat.le_of_lt h59) rfl (by simp [damageLayout])
  refine hfinds.congr ?_
  simp only [List.mem_cons, List.not_mem_nil, or_false]
  omega

theorem ofPayload_foretold (slots : Slots) (payload : Bytes) :
    Foretold (ofOffsets slots payload) (ofPayload slots payload) := by
  change Foretold _ ((reader slots).run (.ofBytes payload)).1
  rw [← Source.ofBytesAt_zero, reader, ofOffsets]
  refine .read_bind (Nat.zero_le _) rfl fun hid => ?_
  rw [List.drop_zero, FrameId.valueOf_layout, Slots.predict_ofPayload]
  split
  · exact .error (.port _)
  rw [Decoder.ofChecked_eq_pure, pure_bind]
  refine .read_bind hid rfl fun _ => ?_
  rw [Base.valueOf_layout, Direction.ofSign_f32At]
  split
  · exact .error (.direction _)
  rw [Decoder.ofChecked_eq_pure, pure_bind]
  simp only [ActionState.ofRaw_natCast]
  exact .findsAt_bind (Additions.findsAt payload) fun _ => .ok _

end Pre

namespace Post

/-- The event of a payload by the numbers at its offsets. -/
def atOffsets (payload : Bytes) : FrameEvent Post where
  id := .ofPayload payload
  event := {
    index := payload.i32At 0
    character := payload.u8At 6
    state := {
      value := payload.u16At 7
      character := if payload.u16At 7 < 341 then none else some (payload.u8At 6) }
    position := ⟨payload.f32At 9, payload.f32At 13⟩
    direction := .ofWord (payload.u32At 17)
    damage := payload.f32At 21
    shield := payload.f32At 25
    lastAttackLanded := if payload.u8At 29 = 0 then none else some (payload.u8At 29)
    comboCount := payload.u8At 30
    lastHitBy := payload.u8At 31
    stocks := payload.u8At 32
    additions := payload.past 33 ⟨payload.f32At 33, payload.past 37 ⟨{
        flags := ⟨((payload.slice 37 5).mapIdx fun place b => b.toNat * 256 ^ place).sum⟩
        miscAction := payload.f32At 42
        ground := payload.u16At 46
        jumps := payload.u8At 48
        lCancel := if payload.u8At 49 = 0 then none else some ⟨payload.u8At 49⟩
        airborne := payload.u8At 50 != 0 },
      payload.past 51 ⟨⟨payload.u8At 51⟩, payload.past 52 ⟨{
          selfInducedAirX := payload.f32At 52
          selfInducedY := payload.f32At 56
          knockbackX := payload.f32At 60
          knockbackY := payload.f32At 64
          selfInducedGroundX := payload.f32At 68 },
        payload.past 72 ⟨payload.f32At 72, payload.past 76 (payload.u32At 76)⟩⟩⟩⟩⟩ }

/-- The event that is read from a payload, in the order in which it is checked up to the port. -/
def eventOfOffsets (payload : Bytes) : Except ErrorClass (FrameEvent Post) :=
  if payload.length < 33 then .error .truncatedInput
  else if Direction.IsNone (payload.u32At 17) then .error .invalidDiscriminant
  else if payload.length ∉ [33, 37, 51, 52, 72, 76] ∧ payload.length < 80 then
    .error .truncatedInput
  else .ok (atOffsets payload)

/-- What comes of a payload, with the slots after it. The port is checked at the very end. -/
def ofOffsets (slots : Slots) (payload : Bytes) : Except ErrorClass (FrameEvent Post × Slots) := do
  let post ← eventOfOffsets payload
  if h : 3 < payload.u8At 4 then .error .invalidDiscriminant
  else
    let slot := FrameId.slotAt payload h
    .ok (post, slots.set slot (slots[slot].next post.event.character post.event.state))

theorem Base.valueOf_layout (payload : Bytes) :
    Base.layout.valueOf (payload.drop 6) = {
      character := payload.u8At 6
      state := payload.u16At 7
      position := ⟨payload.f32At 9, payload.f32At 13⟩
      direction := payload.f32At 17
      damage := payload.f32At 21
      shield := payload.f32At 25
      lastAttackLanded := payload.u8At 29
      comboCount := payload.u8At 30
      lastHitBy := payload.u8At 31
      stocks := payload.u8At 32 } := by
  simp [Base.layout]

theorem valueOf_conditionLayout (payload : Bytes) :
    conditionLayout.valueOf (payload.drop 37) = {
      flags := ⟨((payload.slice 37 5).mapIdx fun place b => b.toNat * 256 ^ place).sum⟩
      miscAction := payload.f32At 42
      ground := payload.u16At 46
      jumps := payload.u8At 48
      lCancel := if payload.u8At 49 = 0 then none else some ⟨payload.u8At 49⟩
      airborne := payload.u8At 50 != 0 } := by
  rw [← StateFlags.value_ofBytes_eq_sum]
  simp [conditionLayout, Bytes.slice_drop, Code.optional_natCast]

theorem Additions.findsAt {payload : Bytes} (h : 33 ≤ payload.length) :
    reader.ifAny.FindsAt payload 33
      (¬(payload.length ∉ [33, 37, 51, 52, 72, 76] ∧ payload.length < 80))
      (atOffsets payload).event.additions := by
  have hfinds : reader.ifAny.FindsAt payload 33
      (payload.length ≤ 33 ∨ 37 ≤ payload.length ∧ (payload.length ≤ 37 ∨ 51 ≤ payload.length ∧
        (payload.length ≤ 51 ∨ 52 ≤ payload.length ∧ (payload.length ≤ 52 ∨ 72 ≤ payload.length ∧
          (payload.length ≤ 72 ∨ 76 ≤ payload.length ∧
            (payload.length ≤ 76 ∨ 80 ≤ payload.length))))))
      (atOffsets payload).event.additions :=
    .ifAny fun h33 => .extended (Nat.le_of_lt h33) rfl (by simp [stateAgeLayout]) fun h37 =>
      .extended (Nat.le_of_lt h37) rfl
        (valueOf_conditionLayout payload) fun h51 =>
        .extended (Nat.le_of_lt h51) rfl (by simp [hurtboxLayout]) fun h52 =>
          .extended (Nat.le_of_lt h52) rfl (by simp [velocitiesLayout]) fun h72 =>
            .extended (Nat.le_of_lt h72) rfl (by simp [hitlagLayout]) fun h76 =>
              .read (Nat.le_of_lt h76) rfl (by simp [animationLayout])
  refine hfinds.congr ?_
  simp only [List.mem_cons, List.not_mem_nil, or_false]
  omega

theorem reader_foretold (payload : Bytes) :
    Foretold (eventOfOffsets payload) (reader.onBytes payload) := by
  -- One check for two reads: who the event is about is read apart from what stands behind it.
  have hid : eventOfOffsets payload =
      if payload.length < 6 then .error .truncatedInput else eventOfOffsets payload := by
    split
    · rw [eventOfOffsets, if_pos (by omega)]
    · rfl
  rw [hid, onBytes, ← Source.ofBytesAt_zero, reader]
  refine .read_bind (Nat.zero_le _) rfl fun hid => ?_
  rw [eventOfOffsets]
  refine .read_bind hid rfl fun hbase => ?_
  rw [Base.valueOf_layout, Direction.ofSign_f32At]
  split
  · exact .error (.direction _)
  rw [Decoder.ofChecked_eq_pure, pure_bind]
  simp only [ActionState.ofRaw_natCast]
  exact .findsAt_bind (Additions.findsAt hbase) fun _ => .ok _

theorem eventOfOffsets_ok {payload : Bytes} {post : FrameEvent Post}
    (h : eventOfOffsets payload = .ok post) : post = atOffsets payload := by
  rw [eventOfOffsets] at h
  split at h
  · cases h
  · split at h
    · cases h
    · split at h
      · cases h
      · cases h
        rfl

theorem ofPayload_foretold (slots : Slots) (payload : Bytes) :
    Foretold (ofOffsets slots payload) (ofPayload slots payload) := by
  have hread := reader_foretold payload
  rw [ofOffsets, ofPayload]
  generalize hevent : eventOfOffsets payload = event, reader.onBytes payload = result at hread
  cases hread with
  | error cause => exact .error cause
  | ok post =>
    obtain rfl := eventOfOffsets_ok hevent
    dsimp only [bind, Except.bind]
    rw [show (atOffsets payload).id = .ofPayload payload from rfl, Slots.update_ofPayload]
    split
    · exact .error (.port _)
    · exact .ok _

end Post

/-- Before a frame the port is checked as soon as it is there, after a frame at the very end. -/
example : Pre.ofOffsets .initial [0, 0, 0, 0, 9, 0] = .error .invalidDiscriminant ∧
    Post.ofOffsets .initial [0, 0, 0, 0, 9, 0] = .error .truncatedInput :=
  ⟨rfl, rfl⟩

end Replay
