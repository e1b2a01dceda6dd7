import Replay.Proofs.Offsets
import Replay.Proofs.PayloadLength

/-!
Payloads of a game start and a game end read at offsets. What a payload holds for a port lies in
several places, in each of them behind what it holds there for the ports before.
-/

namespace Replay

open Reader

namespace Seat

theorem valueOf_layout (payload : Bytes) (start : Nat) :
    layout.valueOf (payload.drop start) = {
      character := payload.u8At start
      type := payload.u8At (start + 1)
      stocks := payload.u8At (start + 2)
      costume := payload.u8At (start + 3)
      teamShade := payload.u8At (start + 7)
      handicap := payload.u8At (start + 8)
      teamColor := payload.u8At (start + 9)
      bitfield := payload.u8At (start + 12)
      cpuLevel := payload.u8At (start + 15)
      offenseRatio := payload.f32At (start + 20)
      defenseRatio := payload.f32At (start + 24)
      modelScale := payload.f32At (start + 28) } := by
  simp [layout]

/-- Types above two are those of no player. -/
theorem occupant?_eq (seat : Seat) :
    seat.occupant? =
      if 2 < seat.type then none
      else some (if seat.type = 0 then .human else if seat.type = 1 then .cpu else .demo) := by
  rw [occupant?]
  match seat.type with
  | 0 => rfl
  | 1 => rfl
  | 2 => rfl
  | n + 3 => exact (if_pos (Nat.le_add_left 3 n)).symm

end Seat

namespace Start

def fixesAt (payload : Bytes) (port : Nat) : ControllerFixes where
  dashBack :=
    let code := payload.u32At (320 + 8 * port)
    if code = 0 then none else some ⟨code⟩
  shieldDrop :=
    let code := payload.u32At (324 + 8 * port)
    if code = 0 then none else some ⟨code⟩

def tagAt (payload : Bytes) (port : Nat) : String :=
  Text.ofField .codePage932 (payload.slice (352 + 16 * port) 16)

/-- The player on a port by the numbers at the offsets of the port. -/
def playerAt (payload : Bytes) (port : Nat) : Option Player :=
  let seat := 100 + 36 * port
  let type := payload.u8At (seat + 1)
  if 2 < type then none
  else some {
    character := payload.u8At seat
    type := if type = 0 then .human else if type = 1 then .cpu else .demo
    stocks := payload.u8At (seat + 2)
    costume := payload.u8At (seat + 3)
    team := if payload.u8At 12 = 0 then none
      else some ⟨⟨payload.u8At (seat + 9)⟩, ⟨payload.u8At (seat + 7)⟩⟩
    handicap := payload.u8At (seat + 8)
    bitfield := payload.u8At (seat + 12)
    cpuLevel := if type = 1 then some (payload.u8At (seat + 15)) else none
    offenseRatio := payload.f32At (seat + 20)
    defenseRatio := payload.f32At (seat + 24)
    modelScale := payload.f32At (seat + 28)
    additions := payload.past 320 ⟨fixesAt payload port, payload.past 352 (tagAt payload port)⟩ }

def netplayAt (payload : Bytes) (port : Nat) : Netplay where
  name := Text.ofField .codePage932 (payload.slice (420 + 31 * port) 31)
  code := Text.ofField .codePage932 (payload.slice (544 + 10 * port) 10)

def uidAt (payload : Bytes) (port : Nat) : String :=
  Text.ofField .utf8 (payload.slice (584 + 29 * port) 29)

def additionsAt (payload : Bytes) : Additions :=
  ⟨payload.u8At 416 != 0, payload.past 417
  ⟨payload.u8At 417 != 0, payload.past 418
  ⟨⟨payload.u8At 418, payload.u8At 419⟩, payload.past 420
  ⟨.ofFn fun port => netplayAt payload port, payload.past 584
  ⟨.ofFn fun port => uidAt payload port, payload.past 700
  ⟨payload.u8At 700, payload.past 701
  ⟨Text.ofField .utf8 (payload.slice 701 51), payload.u32At 752, payload.u32At 756⟩⟩⟩⟩⟩⟩⟩

/-- The record of a payload by the numbers and texts at its offsets. -/
def atOffsets (payload : Bytes) : Start where
  version := ⟨payload.u8At 0, payload.u8At 1, payload.u8At 2⟩
  bitfield := payload.slice 4 1 ++ payload.slice 5 1 ++ payload.slice 7 1
  isTeams := payload.u8At 12 != 0
  itemSpawnFrequency := payload.i8At 15
  selfDestructScore := payload.i8At 16
  stage := payload.u16At 18
  timer := payload.u32At 20
  itemSpawnBitfield := payload.slice 39 5
  damageRatio := payload.f32At 52
  players := .ofFn fun port => playerAt payload port
  randomSeed := payload.u32At 316
  additions := payload.past 416 (additionsAt payload)

/-- What comes of a payload, of which nothing but its length is checked. -/
def ofOffsets (payload : Bytes) : Except ErrorClass Start :=
  if payload.length ∉ [320, 352, 416, 417, 418, 420, 584, 700, 701] ∧ payload.length < 760 then
    .error .truncatedInput
  else .ok (atOffsets payload)

theorem Base.valueOf_layout (payload : Bytes) :
    Base.layout.valueOf payload = {
      version := ⟨payload.u8At 0, payload.u8At 1, payload.u8At 2⟩
      bitfield := payload.slice 4 1 ++ payload.slice 5 1 ++ payload.slice 7 1
      isTeams := payload.u8At 12 != 0
      itemSpawnFrequency := payload.i8At 15
      selfDestructScore := payload.i8At 16
      stage := payload.u16At 18
      timer := payload.u32At 20
      itemSpawnBitfield := payload.slice 39 5
      damageRatio := payload.f32At 52
      seats := .ofFn fun port => Seat.layout.valueOf (payload.drop (100 + 36 * port))
      randomSeed := payload.u32At 316 } := by
  have hseat : Seat.layout.size = 36 := rfl
  simp [Base.layout, versionLayout, bitfieldLayout, hseat, Bytes.slice_drop, List.drop_drop,
    -List.drop_one]

theorem valueOf_fixesLayout (payload : Bytes) :
    fixesLayout.valueOf (payload.drop 320) = .ofFn fun port => fixesAt payload port := by
  simp [fixesLayout, ControllerFixes.layout, fixesAt, Code.optional_natCast,
    Nat.add_right_comm 320]

theorem valueOf_tagsLayout (payload : Bytes) :
    tagsLayout.valueOf (payload.drop 352) = .ofFn fun port => tagAt payload port := by
  simp [tagsLayout, tagAt, Bytes.slice_drop]

theorem valueOf_netplayLayout (payload : Bytes) :
    netplayLayout.valueOf (payload.drop 420) = .ofFn fun port => netplayAt payload port := by
  ext1 port hport
  simp [netplayLayout, netplayAt, Bytes.slice_drop]

theorem valueOf_uidsLayout (payload : Bytes) :
    uidsLayout.valueOf (payload.drop 584) = .ofFn fun port => uidAt payload port := by
  simp [uidsLayout, uidAt, Bytes.slice_drop]

/-- The blocks behind the base, those for the seats among them. -/
def blocksAt (payload : Bytes) : Blocks :=
  ⟨.ofFn fun port => fixesAt payload port, payload.past 352
  ⟨.ofFn fun port => tagAt payload port, payload.past 416 (additionsAt payload)⟩⟩

theorem Blocks.findsAt {payload : Bytes} (h : 320 ≤ payload.length) :
    reader.ifAny.FindsAt payload 320
      (¬(payload.length ∉ [320, 352, 416, 417, 418, 420, 584, 700, 701] ∧ payload.length < 760))
      (payload.past 320 (blocksAt payload)) := by
  have hfinds : reader.ifAny.FindsAt payload 320
      (payload.length ≤ 320 ∨ 352 ≤ payload.length ∧ (payload.length ≤ 352 ∨
        416 ≤ payload.length ∧ (payload.length ≤ 416 ∨ 417 ≤ payload.length ∧
        (payload.length ≤ 417 ∨ 418 ≤ payload.length ∧ (payload.length ≤ 418 ∨
        420 ≤ payload.length ∧ (payload.length ≤ 420 ∨ 584 ≤ payload.length ∧
        (payload.length ≤ 584 ∨ 700 ≤ payload.length ∧ (payload.length ≤ 700 ∨
        701 ≤ payload.length ∧ (payload.length ≤ 701 ∨ 760 ≤ payload.length)))))))))
      (payload.past 320 (blocksAt payload)) :=
    .ifAny fun h320 => .extended (Nat.le_of_lt h320) rfl (valueOf_fixesLayout payload) fun h352 =>
      .extended (Nat.le_of_lt h352) rfl (valueOf_tagsLayout payload) fun h416 =>
        .extended (Nat.le_of_lt h416) rfl (by simp [palLayout]) fun h417 =>
          .extended (Nat.le_of_lt h417) rfl (by simp [frozenLayout]) fun h418 =>
            .extended (Nat.le_of_lt h418) rfl (by simp [sceneLayout]) fun h420 =>
              .extended (Nat.le_of_lt h420) rfl (valueOf_netplayLayout payload) fun h584 =>
                .extended (Nat.le_of_lt h584) rfl (valueOf_uidsLayout payload) fun h700 =>
                  .extended (Nat.le_of_lt h700) rfl (by simp [languageLayout]) fun h701 =>
                    .read (Nat.le_of_lt h701) rfl (by simp [matchLayout, Bytes.slice_drop])
  refine hfinds.congr ?_
  simp only [List.mem_cons, List.not_mem_nil, or_false]
  omega

theorem seatBlocks_past (payload : Bytes) (port : Fin 4) :
    seatBlocks (payload.past 320 (blocksAt payload)) port =
      payload.past 320 ⟨fixesAt payload port, payload.past 352 (tagAt payload port)⟩ := by
  have hget : ∀ {α : Type} (f : Fin 4 → α), (Vector.ofFn f).get port = f port :=
    fun f => Vector.getElem_ofFn port.isLt
  rw [seatBlocks, blocksAt, Bytes.map_past, Bytes.map_past, hget, hget]

theorem isCpu_iff (n : Nat) :
    (if n = 0 then PlayerType.human else if n = 1 then .cpu else .demo) = .cpu ↔ n = 1 := by
  match n with
  | 0 => decide
  | 1 => decide
  | n + 2 => simp

/-- A seat with what the blocks hold for it makes the player. -/
theorem player?_eq (payload : Bytes) (port : Fin 4) :
    (Seat.layout.valueOf (payload.drop (100 + 36 * port))).player? (payload.u8At 12 != 0)
      (seatBlocks (payload.past 320 (blocksAt payload)) port) = playerAt payload port := by
  rw [Seat.valueOf_layout, Seat.player?, Seat.occupant?_eq, seatBlocks_past, playerAt]
  by_cases htype : 2 < payload.u8At (100 + 36 * port + 1)
  · simp only [if_pos htype, Option.map_none]
  · simp only [if_neg htype, Option.map_some, isCpu_iff, bne_iff_ne, ite_not]

theorem ofBlocks_eq (payload : Bytes) :
    ofBlocks (Base.layout.valueOf payload) (payload.past 320 (blocksAt payload)) =
      atOffsets payload := by
  have hplayers : (ofBlocks (Base.layout.valueOf payload)
      (payload.past 320 (blocksAt payload))).players = (atOffsets payload).players := by
    ext1 port hport
    rw [players_ofBlocks, Base.valueOf_layout, atOffsets, Vector.getElem_ofFn,
      Vector.getElem_ofFn, player?_eq]
  have hrest : (ofBlocks (Base.layout.valueOf payload)
      (payload.past 320 (blocksAt payload))).additions = (atOffsets payload).additions := by
    have htags : (payload.past 320 (blocksAt payload)).bind (·.more) =
        payload.past 352 _ := Bytes.bind_past (by decide) rfl
    change ((payload.past 320 (blocksAt payload)).bind (·.more)).bind (·.more) = _
    rw [htags]
    exact Bytes.bind_past (by decide) rfl
  unfold ofBlocks ofParts at *
  rw [Base.valueOf_layout] at *
  simp only [atOffsets, Start.mk.injEq, true_and] at *
  exact ⟨hplayers, hrest⟩

theorem ofPayload_foretold (payload : Bytes) :
    Foretold (ofOffsets payload) (ofPayload payload) := by
  -- The one check on the length is made for the base first and then for what is behind it.
  have hbase : ofOffsets payload =
      if payload.length < 320 then .error .truncatedInput else ofOffsets payload := by
    split
    · rw [ofOffsets, if_pos (by simp only [List.mem_cons, List.not_mem_nil, or_false]; omega)]
    · rfl
  rw [hbase, ofPayload, onBytes, ← Source.ofBytesAt_zero, reader_eq]
  refine .read_bind (Nat.zero_le _) rfl fun h320 => ?_
  rw [List.drop_zero, map_eq_pure_bind, ofOffsets, ← ofBlocks_eq]
  exact .findsAt_bind (Blocks.findsAt h320) fun _ => .ok _

end Start

namespace End

/-- The record of a payload by the numbers at its offsets. -/
def atOffsets (payload : Bytes) : End :=
  ⟨⟨payload.u8At 0⟩, payload.past 1
  ⟨payload.i8At 1, payload.past 2 (.ofFn fun port => payload.i8At (2 + port))⟩⟩

def ofOffsets (payload : Bytes) : Except ErrorClass End :=
  if payload.length ∉ [1, 2] ∧ payload.length < 6 then .error .truncatedInput
  else .ok (atOffsets payload)

theorem ofPayload_foretold (payload : Bytes) :
    Foretold (ofOffsets payload) (ofPayload payload) := by
  have hfinds : reader.FindsAt payload 0
      (1 ≤ payload.length ∧ (payload.length ≤ 1 ∨ 2 ≤ payload.length ∧
        (payload.length ≤ 2 ∨ 6 ≤ payload.length))) (atOffsets payload) :=
    .extended (Nat.zero_le _) rfl (by simp [methodLayout]) fun h1 =>
      .extended (Nat.le_of_lt h1) rfl (by simp [quitterLayout, -List.drop_one]) fun h2 =>
        .read (Nat.le_of_lt h2) rfl (by simp [placementsLayout])
  have hcut : ∀ n : Nat, (1 ≤ n ∧ (n ≤ 1 ∨ 2 ≤ n ∧ (n ≤ 2 ∨ 6 ≤ n))) ↔ ¬(n ∉ [1, 2] ∧ n < 6) := by
    intro n
    simp only [List.mem_cons, List.not_mem_nil, or_false]
    omega
  rw [ofOffsets, ofPayload, onBytes, ← Source.ofBytesAt_zero, ← bind_pure reader]
  exact .findsAt_bind (hfinds.congr (hcut _)) fun _ => .ok _

end End

end Replay
