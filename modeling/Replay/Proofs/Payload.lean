import Replay.Proofs.Fields
import Replay.Stream.Events

/-!
Payloads of known events. What prediction looks at lies at fixed offsets of a sound payload, and a
payload that is refused is refused with a cause that its reader names.
-/

namespace Replay

theorem Except.bind_eq_ok {ε α β : Type} {x : Except ε α} {f : α → Except ε β} {b : β}
    (h : x >>= f = .ok b) : ∃ a, x = .ok a ∧ f a = .ok b := by
  cases x with
  | error e => cases h
  | ok a => exact ⟨a, rfl, h⟩

theorem Except.exists_of_isOk {ε α : Type} {x : Except ε α} (h : x.isOk = true) :
    ∃ a, x = .ok a := by
  cases x with
  | ok a => exact ⟨a, rfl⟩
  | error e => cases h

theorem Decoder.ofChecked_ok {σ α : Type} [Feed σ] {r : Except Cause α} {s t : σ} {a : α}
    (h : (ofChecked r).run s = (.ok a, t)) : r = .ok a ∧ t = s := by
  cases r with
  | ok b => cases h; exact ⟨rfl, rfl⟩
  | error cause => cases h

theorem Reader.onBytes_ok {α : Type} {reader : Reader α} {bytes : Bytes} {a : α}
    (h : reader.onBytes bytes = .ok a) : ∃ t, reader.run (.ofBytes bytes) = (.ok a, t) :=
  ⟨_, Prod.ext h rfl⟩

namespace FrameId

/-- Whom a frame payload is about: its index, its port, and whether its follower byte is set. -/
def ofPayload (payload : Bytes) : FrameId where
  index := (payload.slice 0 4).signed
  port := (payload.slice 4 1).unsigned
  isFollower := (payload.slice 5 1).unsigned != 0

theorem valueOf_layout (payload : Bytes) : layout.valueOf payload = ofPayload payload := rfl

end FrameId

namespace Pre

/-- The action state number of the payload of an event before a frame. -/
def stateOfPayload (payload : Bytes) : Nat :=
  (payload.slice 10 2).unsigned

theorem state_valueOf_layout (payload : Bytes) :
    (Base.layout.valueOf (payload.drop 6)).state = stateOfPayload payload := by
  change (Bytes.slice ((payload.drop 6).drop 4) 0 2).unsigned = _
  rw [Bytes.slice_drop, Bytes.slice_drop]
  rfl

/-- A sound payload gives the state number with the character that the slots predict. -/
theorem ofPayload_ok {slots : Slots} {payload : Bytes} {event : FrameEvent Pre}
    (h : ofPayload slots payload = .ok event) :
    ∃ character, slots.predict (.ofPayload payload) = .ok character ∧
      event.id = .ofPayload payload ∧
      event.event.state = .ofRaw (stateOfPayload payload) character := by
  obtain ⟨t, hr⟩ := Reader.onBytes_ok h
  obtain ⟨id, s₁, hid, h₁⟩ := Decoder.run_bind_eq_ok hr
  obtain ⟨character, s₂, hc, h₂⟩ := Decoder.run_bind_eq_ok h₁
  obtain ⟨base, s₃, hb, h₃⟩ := Decoder.run_bind_eq_ok h₂
  obtain ⟨direction, s₄, -, h₄⟩ := Decoder.run_bind_eq_ok h₃
  obtain ⟨additions, s₅, -, h₅⟩ := Decoder.run_bind_eq_ok h₄
  obtain ⟨-, hidv, rfl⟩ := Layout.read_ok hid
  obtain ⟨hcv, rfl⟩ := Decoder.ofChecked_ok hc
  obtain ⟨-, hbv, -⟩ := Layout.read_ok hb
  have hi : id = .ofPayload payload := hidv.trans (FrameId.valueOf_layout payload)
  have hs : base.state = stateOfPayload payload := by
    rw [hbv]
    exact state_valueOf_layout payload
  cases h₅
  exact ⟨character, hi ▸ hcv, hi, by rw [← hs]⟩

end Pre

namespace Post

/-- The character in the payload of an event after a frame. -/
def characterOfPayload (payload : Bytes) : Nat :=
  (payload.slice 6 1).unsigned

/-- The action state number of the payload of an event after a frame. -/
def stateOfPayload (payload : Bytes) : Nat :=
  (payload.slice 7 2).unsigned

theorem character_valueOf_layout (payload : Bytes) :
    (Base.layout.valueOf (payload.drop 6)).character = characterOfPayload payload := by
  change (Bytes.slice (payload.drop 6) 0 1).unsigned = _
  rw [Bytes.slice_drop]
  rfl

theorem state_valueOf_layout (payload : Bytes) :
    (Base.layout.valueOf (payload.drop 6)).state = stateOfPayload payload := by
  change (Bytes.slice ((payload.drop 6).drop 1) 0 2).unsigned = _
  rw [Bytes.slice_drop, Bytes.slice_drop]
  rfl

theorem reader_ok {s t : Source} {event : FrameEvent Post} (h : reader.run s = (.ok event, t)) :
    event.id = .ofPayload s.left ∧ event.event.character = characterOfPayload s.left ∧
      event.event.state = .ofRaw (stateOfPayload s.left) (characterOfPayload s.left) := by
  obtain ⟨id, s₁, hid, h₁⟩ := Decoder.run_bind_eq_ok h
  obtain ⟨base, s₂, hb, h₂⟩ := Decoder.run_bind_eq_ok h₁
  obtain ⟨direction, s₃, -, h₃⟩ := Decoder.run_bind_eq_ok h₂
  obtain ⟨additions, s₄, -, h₄⟩ := Decoder.run_bind_eq_ok h₃
  obtain ⟨-, hidv, rfl⟩ := Layout.read_ok hid
  obtain ⟨-, hbv, -⟩ := Layout.read_ok hb
  have hc : base.character = characterOfPayload s.left := by
    rw [hbv]
    exact character_valueOf_layout s.left
  have hs : base.state = stateOfPayload s.left := by
    rw [hbv]
    exact state_valueOf_layout s.left
  cases h₄
  exact ⟨hidv, hc, by rw [← hc, ← hs]⟩

/-- A payload is decoded if it can be read and is about a slot. -/
theorem ofPayload_eq_ok_iff {slots after : Slots} {payload : Bytes} {event : FrameEvent Post} :
    ofPayload slots payload = .ok (event, after) ↔ reader.onBytes payload = .ok event ∧
      slots.update event.id event.event.character event.event.state = .ok after := by
  constructor
  · intro h
    obtain ⟨post, hr, hu⟩ := Except.bind_eq_ok h
    cases hs : slots.update post.id post.event.character post.event.state with
    | error cause =>
      simp only [hs] at hu
      cases hu
    | ok slots' =>
      simp only [hs] at hu
      cases hu
      exact ⟨hr, hs⟩
  · rintro ⟨hr, hu⟩
    simp only [ofPayload, hr, bind, Except.bind, hu]
    rfl

/-- A sound payload confirms its character and its action state in its own slot. -/
theorem ofPayload_ok {slots after : Slots} {payload : Bytes} {event : FrameEvent Post}
    (h : ofPayload slots payload = .ok (event, after)) :
    slots.update (.ofPayload payload) (characterOfPayload payload)
      (.ofRaw (stateOfPayload payload) (characterOfPayload payload)) = .ok after := by
  obtain ⟨hp, hu⟩ := ofPayload_eq_ok_iff.mp h
  obtain ⟨t, hr⟩ := Reader.onBytes_ok hp
  obtain ⟨hid, hc, hs⟩ := reader_ok hr
  rw [hid, hs, hc] at hu
  exact hu

end Post

namespace Reader

variable {α β : Type}

theorem Names.onBytes {reader : Reader α} (h : reader.Names) {bytes : Bytes} {e : Failure}
    (he : reader.onBytes bytes = .error e) : e.Named :=
  h (.ofBytes bytes) (Source.inMemory_ofBytes bytes) e _ (Prod.ext he rfl)

theorem Names.ofChecked {r : Except Cause α}
    (h : ∀ cause, r = .error cause → cause.errorClass.OfReaders) :
    Names (Decoder.ofChecked r : Reader α) := by
  cases r with
  | ok a => exact Names.pure a
  | error cause => exact Names.reject (h cause rfl)

theorem Names.map {reader : Reader α} (h : reader.Names) (f : α → β) :
    Names (f <$> reader) :=
  FailsFor.map h f

theorem Names.remaining : Names Decoder.remaining := by
  intro s _ e t h
  cases h

theorem Names.ifAny {reader : Reader α} (h : reader.Names) : reader.ifAny.Names := by
  refine Names.remaining.bind fun n => ?_
  split
  · exact Names.pure none
  · exact h.map some

theorem Names.read (layout : Layout α) : layout.read.Names :=
  (Composed.read layout).names

theorem Names.extended (layout : Layout α) {next : Reader β} (h : next.Names) :
    (layout.extended next).Names :=
  (Names.read layout).bind fun _ => h.ifAny.bind fun _ => Names.pure _

end Reader

theorem FrameId.slot_error {id : FrameId} {cause : Cause} (h : id.slot = .error cause) :
    cause.errorClass.OfReaders := by
  unfold slot at h
  split at h
  · cases h
  · cases h
    exact ⟨nofun, nofun⟩

theorem Direction.ofSign_error {x : Binary64} {cause : Cause} (h : ofSign x = .error cause) :
    cause.errorClass.OfReaders := by
  unfold ofSign at h
  split at h
  · cases h
  · split at h
    · cases h
    · cases h
      exact ⟨nofun, nofun⟩

theorem Slots.predict_error {slots : Slots} {id : FrameId} {cause : Cause}
    (h : slots.predict id = .error cause) : id.slot = .error cause := by
  unfold predict find at h
  cases hs : id.slot with
  | ok slot => rw [hs] at h; cases h
  | error c => rw [hs] at h; cases h; rfl

theorem Slots.update_error {slots : Slots} {id : FrameId} {character : Int} {action : ActionState}
    {cause : Cause} (h : slots.update id character action = .error cause) :
    id.slot = .error cause := by
  unfold update at h
  cases hs : id.slot with
  | ok slot => rw [hs] at h; cases h
  | error c => rw [hs] at h; cases h; rfl

open Reader in
theorem Start.names_reader : Start.reader.Names := by
  have names_more : ∀ base fixes tags, Names (do
      let additions ← if Option.isSome tags then Additions.reader.ifAny else pure none
      pure (ofParts base fixes tags additions)) := by
    intro base fixes tags
    split
    · exact (Names.extended _ (Names.extended _ (Names.extended _ (Names.extended _
        (Names.extended _ (Names.extended _ (Names.read _))))))).ifAny.bind fun _ => Names.pure _
    · exact Names.pure _
  refine (Names.read _).bind fun base => (Names.read _).ifAny.bind fun fixes => ?_
  dsimp only
  split
  · exact (Names.read _).ifAny.bind fun tags => names_more base fixes tags
  · exact names_more base fixes none

open Reader in
theorem End.names_reader : End.reader.Names :=
  Names.extended _ (Names.extended _ (Names.read _))

open Reader in
theorem Pre.names_reader (slots : Slots) : (Pre.reader slots).Names := by
  refine (Names.read _).bind fun id => Names.bind ?_ fun character =>
    (Names.read _).bind fun base => Names.bind ?_ fun direction => Names.bind ?_ fun additions =>
      Names.pure _
  · exact Names.ofChecked fun cause h => FrameId.slot_error (Slots.predict_error h)
  · exact Names.ofChecked fun cause h => Direction.ofSign_error h
  · exact (Names.extended _ (Names.read _)).ifAny

open Reader in
theorem Post.names_reader : Post.reader.Names := by
  refine (Names.read _).bind fun id => (Names.read _).bind fun base =>
    Names.bind ?_ fun direction => Names.bind ?_ fun additions => Names.pure _
  · exact Names.ofChecked fun cause h => Direction.ofSign_error h
  · exact Names.ifAny (Names.extended _ (Names.extended _ (Names.extended _ (Names.extended _
      (Names.extended _ (Names.read _))))))

theorem Post.ofPayload_error {slots : Slots} {payload : Bytes} {e : Failure}
    (h : Post.ofPayload slots payload = .error e) : e.Named := by
  unfold Post.ofPayload at h
  cases hp : Post.reader.onBytes payload with
  | error d =>
    rw [hp] at h
    cases h
    exact Post.names_reader.onBytes hp
  | ok post =>
    rw [hp] at h
    cases hu : slots.update post.id post.event.character post.event.state with
    | ok slots' => simp only [bind, Except.bind, hu] at h; cases h
    | error cause =>
      simp only [bind, Except.bind, hu] at h
      cases h
      exact Failure.named_ofCause (FrameId.slot_error (Slots.update_error hu))

namespace EventKind

variable {options : Options} {slots after : Slots} {payload : Bytes} {call : Option Call}

theorem decode_framePre_ok (hskip : options.skipFrames = false)
    (h : EventKind.framePre.decode options slots payload = .ok (call, after)) :
    ∃ pre, Pre.ofPayload slots payload = .ok pre ∧ call = some (.framePre pre) ∧ after = slots := by
  simp only [decode, hskip] at h
  obtain ⟨pre, hpre, hcall⟩ := Except.bind_eq_ok h
  cases hcall
  exact ⟨pre, hpre, rfl, rfl⟩

theorem decode_framePost_ok (hskip : options.skipFrames = false)
    (h : EventKind.framePost.decode options slots payload = .ok (call, after)) :
    ∃ post, Post.ofPayload slots payload = .ok (post, after) ∧ call = some (.framePost post) := by
  simp only [decode, hskip] at h
  obtain ⟨⟨post, after'⟩, hpost, hcall⟩ := Except.bind_eq_ok h
  cases hcall
  exact ⟨post, hpost, rfl⟩

end EventKind

/-- A refused payload is refused with a cause of its reader's own. -/
theorem EventKind.decode_error {options : Options} {slots : Slots} {payload : Bytes}
    {kind : EventKind} {e : Failure} (h : kind.decode options slots payload = .error e) :
    e.Named := by
  cases kind with
  | gameStart =>
    simp only [decode] at h
    cases hp : Start.ofPayload payload with
    | ok start => rw [hp] at h; cases h
    | error d => rw [hp] at h; cases h; exact Start.names_reader.onBytes hp
  | gameEnd =>
    simp only [decode] at h
    cases hp : End.ofPayload payload with
    | ok finish => rw [hp] at h; cases h
    | error d => rw [hp] at h; cases h; exact End.names_reader.onBytes hp
  | framePre =>
    simp only [decode] at h
    split at h
    · cases h
    · cases hp : Pre.ofPayload slots payload with
      | ok event => rw [hp] at h; cases h
      | error d => rw [hp] at h; cases h; exact (Pre.names_reader slots).onBytes hp
  | framePost =>
    simp only [decode] at h
    split at h
    · cases h
    · cases hp : Post.ofPayload slots payload with
      | ok event => rw [hp] at h; cases h
      | error d => rw [hp] at h; cases h; exact Post.ofPayload_error hp

end Replay
