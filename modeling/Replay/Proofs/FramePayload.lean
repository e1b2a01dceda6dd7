import Replay.Proofs.Payload

/-!
Frame payloads by their parts. The first six bytes say whom an event is about; what is read behind
them knows nothing of the index, and of the slots only what is predicted for the fighter. So two
payloads that differ in their first four bytes give the same event but for the index.
-/

namespace Replay

namespace Decoder

variable {σ α β : Type} [Feed σ]

theorem map_run_ok_iff {f : α → β} {d : Decoder σ α} {s : σ} {b : β} :
    ((f <$> d).run s).1 = .ok b ↔ ∃ a, (d.run s).1 = .ok a ∧ b = f a := by
  rw [map_eq_pure_bind, run_bind]
  rcases d.run s with ⟨e | a, t⟩
  · simp
  · simp [eq_comm]

end Decoder

namespace FrameId

/-- The same fighter on the frame with index zero. -/
def withoutIndex (id : FrameId) : FrameId :=
  { id with index := 0 }

/-- What is decided by reading an id and going on from it, for a payload. -/
theorem onBytes_bind_ok_iff {α : Type} {next : FrameId → Reader α} {payload : Bytes} {a : α} :
    (layout.read >>= next).onBytes payload = .ok a ↔
      6 ≤ payload.length ∧
        ((next (.ofPayload payload)).run ((Source.ofBytes payload).skip 6)).1 = .ok a := by
  constructor
  · intro h
    obtain ⟨t, hr⟩ := Reader.onBytes_ok h
    obtain ⟨id, u, hid, hu⟩ := Decoder.run_bind_eq_ok hr
    obtain ⟨hlength, hvalue, rfl⟩ := Layout.read_ok hid
    have hpayload : id = .ofPayload payload := hvalue.trans (valueOf_layout payload)
    subst hpayload
    exact ⟨hlength, congrArg Prod.fst hu⟩
  · rintro ⟨hlength, hrest⟩
    have hid : layout.read.run (.ofBytes payload) =
        (.ok (.ofPayload payload), (Source.ofBytes payload).skip 6) :=
      Layout.readUnder_of_size_le [] (Source.inMemory_ofBytes payload) hlength
    rw [Reader.onBytes, Decoder.run_bind_of_ok hid]
    exact hrest

variable {payload payload' : Bytes}

theorem withoutIndex_ofPayload (h : payload'.drop 4 = payload.drop 4) :
    (ofPayload payload').withoutIndex = (ofPayload payload).withoutIndex := by
  have hslice : ∀ offset, payload'.slice (4 + offset) 1 = payload.slice (4 + offset) 1 := by
    intro offset
    rw [← Bytes.slice_drop, h, Bytes.slice_drop]
  have hport : payload'.slice 4 1 = payload.slice 4 1 := hslice 0
  have hfollower : payload'.slice 5 1 = payload.slice 5 1 := hslice 1
  simp only [withoutIndex, ofPayload, hport, hfollower]

/-- Behind the id two payloads look the same if only their first four bytes may differ. -/
theorem skip_ofBytes (h : payload'.drop 4 = payload.drop 4) :
    (Source.ofBytes payload').skip 6 = (Source.ofBytes payload).skip 6 := by
  have hdrop : payload'.drop 6 = payload.drop 6 := by
    have h₂ := congrArg (List.drop 2) h
    rwa [List.drop_drop, List.drop_drop] at h₂
  simp only [Source.skip, Source.ofBytes, hdrop]

end FrameId

namespace Pre

/-- What is read behind the id, as if the index was zero. -/
def behindId (predicted : Except Cause Int) : Reader Pre := do
  let character ← .ofChecked predicted
  let base ← Base.layout.read
  let direction ← .ofChecked (Direction.ofSign base.direction)
  let additions ← Additions.reader.ifAny
  pure {
    index := 0
    randomSeed := base.randomSeed
    state := .ofRaw base.state character
    position := base.position
    direction
    joystick := base.joystick
    cstick := base.cstick
    triggers := ⟨base.triggerLogical, base.triggers⟩
    buttons := base.buttons
    additions }

def withIndex (id : FrameId) (pre : Pre) : FrameEvent Pre :=
  ⟨id, { pre with index := id.index }⟩

theorem reader_eq (slots : Slots) :
    reader slots = FrameId.layout.read >>= fun id =>
      withIndex id <$> behindId (slots.predict id) := by
  simp only [reader, behindId, withIndex, map_eq_pure_bind, bind_assoc, pure_bind]

theorem ofPayload_ok_iff {slots : Slots} {payload : Bytes} {event : FrameEvent Pre} :
    ofPayload slots payload = .ok event ↔
      6 ≤ payload.length ∧ ∃ pre,
        ((behindId (slots.predict (.ofPayload payload))).run
          ((Source.ofBytes payload).skip 6)).1 = .ok pre ∧
        event = withIndex (.ofPayload payload) pre := by
  rw [ofPayload, reader_eq, FrameId.onBytes_bind_ok_iff, Decoder.map_run_ok_iff]

end Pre

namespace Post

/-- What is read behind the id, as if the index was zero. -/
def behindId : Reader Post := do
  let base ← Base.layout.read
  let direction ← .ofChecked (Direction.ofSign base.direction)
  let additions ← Additions.reader.ifAny
  pure {
    index := 0
    character := base.character
    state := .ofRaw base.state base.character
    position := base.position
    direction
    damage := base.damage
    shield := base.shield
    lastAttackLanded := if base.lastAttackLanded = 0 then none else some base.lastAttackLanded
    comboCount := base.comboCount
    lastHitBy := base.lastHitBy
    stocks := base.stocks
    additions }

def withIndex (id : FrameId) (post : Post) : FrameEvent Post :=
  ⟨id, { post with index := id.index }⟩

theorem reader_eq :
    reader = FrameId.layout.read >>= fun id => withIndex id <$> behindId := by
  simp only [reader, behindId, withIndex, map_eq_pure_bind, bind_assoc, pure_bind]

theorem ofPayload_ok_iff {slots after : Slots} {payload : Bytes} {event : FrameEvent Post} :
    ofPayload slots payload = .ok (event, after) ↔
      6 ≤ payload.length ∧ ∃ post,
        (behindId.run ((Source.ofBytes payload).skip 6)).1 = .ok post ∧
        event = withIndex (.ofPayload payload) post ∧
        slots.update (.ofPayload payload) post.character post.state = .ok after := by
  have hreader : ∀ {event}, reader.onBytes payload = .ok event ↔ 6 ≤ payload.length ∧
      ∃ post, (behindId.run ((Source.ofBytes payload).skip 6)).1 = .ok post ∧
        event = withIndex (.ofPayload payload) post := by
    intro event
    rw [reader_eq, FrameId.onBytes_bind_ok_iff, Decoder.map_run_ok_iff]
  rw [ofPayload_eq_ok_iff, hreader]
  constructor
  · rintro ⟨⟨hlength, post, hpost, rfl⟩, hu⟩
    exact ⟨hlength, post, hpost, rfl, hu⟩
  · rintro ⟨hlength, post, hpost, rfl, hu⟩
    exact ⟨⟨hlength, post, hpost, rfl⟩, hu⟩

end Post

end Replay
