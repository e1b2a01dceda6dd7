import Mathlib.Data.List.Induction
import Replay.Proofs.Payload
import Replay.Proofs.SizeRecord

/-!
The events of a raw stream as a list: what they tell the sink in order, how many bytes they take,
and which lists of events the loop can have behind it.
-/

namespace Replay

/-- Whether the call is about anything but a frame. -/
def Call.isOther : Call → Bool
  | .framePre _ | .framePost _ => false
  | .gameStart _ | .gameEnd _ | .metadata _ => true

/-- An event as it stands in the stream. -/
structure Event where
  code : UInt8
  payload : Bytes

namespace Event

def bytes (event : Event) : Bytes :=
  event.code :: event.payload

/-- Four codes are those of events that are decoded. -/
def kind (event : Event) : Option EventKind :=
  if event.code = 0x36 then some .gameStart
  else if event.code = 0x37 then some .framePre
  else if event.code = 0x38 then some .framePost
  else if event.code = 0x39 then some .gameEnd
  else none

theorem ofCode?_code (event : Event) : EventKind.ofCode? event.code.toNat = event.kind := by
  unfold kind
  split_ifs with h36 h37 h38 h39
  · rw [h36]; rfl
  · rw [h37]; rfl
  · rw [h38]; rfl
  · rw [h39]; rfl
  · refine List.find?_eq_none.mpr fun kind _ hkind => ?_
    have hcode := (beq_iff_eq.mp hkind).symm
    cases kind with
    | gameStart => exact h36 (UInt8.toNat_inj.mp hcode)
    | framePre => exact h37 (UInt8.toNat_inj.mp hcode)
    | framePost => exact h38 (UInt8.toNat_inj.mp hcode)
    | gameEnd => exact h39 (UInt8.toNat_inj.mp hcode)

/-- The table gives the code just the payload size that the event has. -/
def Fits (table : SizeTable) (event : Event) : Prop :=
  table.lookup event.code.toNat = some (event.payload.length : Int)

instance (table : SizeTable) (event : Event) : Decidable (event.Fits table) :=
  inferInstanceAs (Decidable (_ = _))

/-- What the event tells the sink, and the slots after it. Unknown events tell nothing. -/
def decode (options : Options) (slots : Slots) (event : Event) :
    Except Failure (Option Call × Slots) :=
  match event.kind with
  | none => .ok (none, slots)
  | some kind => kind.decode options slots event.payload

/-- Whether it is an event before or after a frame. -/
def IsFrame (event : Event) : Prop :=
  event.kind = some .framePre ∨ event.kind = some .framePost

instance (event : Event) : Decidable event.IsFrame :=
  inferInstanceAs (Decidable (_ ∨ _))

/-- What events in a row tell the sink, and the slots after them. -/
def decodeAll (options : Options) (slots : Slots) :
    List Event → Except Failure (List Call × Slots)
  | [] => .ok ([], slots)
  | event :: events => do
    let (call, slots) ← event.decode options slots
    let (calls, slots) ← decodeAll options slots events
    pure (call.toList ++ calls, slots)

/-- The last event ends the game. -/
def EndsGame (events : List Event) : Prop :=
  events.getLast?.bind kind = some .gameEnd

instance (events : List Event) : Decidable (EndsGame events) :=
  inferInstanceAs (Decidable (_ = _))

/-- How many bytes of the stream the size record and the events take. -/
def lengthAfter (record : SizeRecord) (events : List Event) : Nat :=
  record.length + (events.map fun event => event.bytes.length).sum

theorem length_bytes (event : Event) : event.bytes.length = 1 + event.payload.length := by
  rw [bytes, List.length_cons, Nat.add_comm]

theorem lengthAfter_concat (record : SizeRecord) (events : List Event) (event : Event) :
    lengthAfter record (events ++ [event]) = lengthAfter record events + event.bytes.length := by
  simp only [lengthAfter, List.map_append, List.map_cons, List.map_nil, List.sum_append,
    List.sum_cons, List.sum_nil]
  omega

theorem lengthAfter_eq (record : SizeRecord) (events : List Event) :
    lengthAfter record events = record.length + (events.flatMap bytes).length := by
  rw [lengthAfter, List.length_flatMap]

/-- Every event takes at least its code byte. -/
theorem lengthAfter_take_lt (record : SizeRecord) {events : List Event} {j : Nat}
    (h : j < events.length) : lengthAfter record (events.take j) < lengthAfter record events := by
  have hsplit : events = events.take j ++ events[j] :: events.drop (j + 1) := by
    rw [List.getElem_cons_drop, List.take_append_drop]
  have hlength : (events.flatMap bytes).length = ((events.take j).flatMap bytes).length +
      (events[j].bytes.length + ((events.drop (j + 1)).flatMap bytes).length) := by
    conv => lhs; rw [hsplit]
    rw [List.flatMap_append, List.length_append, List.flatMap_cons, List.length_append]
  rw [lengthAfter_eq, lengthAfter_eq, hlength, length_bytes]
  omega

theorem endsGame_concat {events : List Event} {event : Event} :
    EndsGame (events ++ [event]) ↔ event.kind = some .gameEnd := by
  rw [EndsGame, List.getLast?_concat, Option.bind_some]

/-- An event that is not about a frame does the same under all options, and leaves all slots as they
are. -/
theorem decode_of_not_frame {event : Event} (h : ¬event.IsFrame) (options options' : Options)
    (slots slots' : Slots) :
    event.decode options' slots' =
      (event.decode options slots).map fun result => (result.1, slots') := by
  unfold Event.decode
  split
  · rfl
  · rename_i kind hk
    cases kind with
    | gameStart =>
      rw [EventKind.decode, EventKind.decode]
      cases Start.ofPayload event.payload <;> rfl
    | gameEnd =>
      rw [EventKind.decode, EventKind.decode]
      cases End.ofPayload event.payload <;> rfl
    | framePre => exact absurd (.inl hk) h
    | framePost => exact absurd (.inr hk) h

/-- All that decoding an event can come to: the call for it and the slots after it. -/
inductive Decodes (options : Options) (slots : Slots) (event : Event) :
    Option Call → Slots → Prop where
  | unknown (kind : event.kind = none) : Decodes options slots event none slots
  | skipped (skips : options.skipFrames = true) (frame : event.IsFrame) :
    Decodes options slots event none slots
  | gameStart {start : Start} (kind : event.kind = some .gameStart)
    (decoded : Start.ofPayload event.payload = .ok start) :
    Decodes options slots event (some (.gameStart start)) slots
  | gameEnd {finish : End} (kind : event.kind = some .gameEnd)
    (decoded : End.ofPayload event.payload = .ok finish) :
    Decodes options slots event (some (.gameEnd finish)) slots
  | framePre {pre : FrameEvent Pre} (takes : options.skipFrames = false)
    (kind : event.kind = some .framePre) (decoded : Pre.ofPayload slots event.payload = .ok pre) :
    Decodes options slots event (some (.framePre pre)) slots
  | framePost {post : FrameEvent Post} {after : Slots} (takes : options.skipFrames = false)
    (kind : event.kind = some .framePost)
    (decoded : Post.ofPayload slots event.payload = .ok (post, after)) :
    Decodes options slots event (some (.framePost post)) after

theorem decodes_of_ok {options : Options} {slots after : Slots} {event : Event}
    {call : Option Call} (h : event.decode options slots = .ok (call, after)) :
    Decodes options slots event call after := by
  unfold Event.decode at h
  split at h
  · cases h
    exact .unknown ‹_›
  · rename_i kind hkind
    cases kind with
    | gameStart =>
      obtain ⟨start, hstart, hcall⟩ := Except.bind_eq_ok h
      cases hcall
      exact .gameStart hkind hstart
    | gameEnd =>
      obtain ⟨finish, hfinish, hcall⟩ := Except.bind_eq_ok h
      cases hcall
      exact .gameEnd hkind hfinish
    | framePre =>
      cases hskip : options.skipFrames with
      | true =>
        simp only [EventKind.decode, hskip, ↓reduceIte] at h
        cases h
        exact .skipped hskip (.inl hkind)
      | false =>
        obtain ⟨pre, hpre, rfl, rfl⟩ := EventKind.decode_framePre_ok hskip h
        exact .framePre hskip hkind hpre
    | framePost =>
      cases hskip : options.skipFrames with
      | true =>
        simp only [EventKind.decode, hskip, ↓reduceIte] at h
        cases h
        exact .skipped hskip (.inr hkind)
      | false =>
        obtain ⟨post, hpost, rfl⟩ := EventKind.decode_framePost_ok hskip h
        exact .framePost hskip hkind hpost

theorem Decodes.decode_eq {options : Options} {slots after : Slots} {event : Event}
    {call : Option Call} (h : Decodes options slots event call after) :
    event.decode options slots = .ok (call, after) := by
  cases h with
  | unknown kind => simp only [Event.decode, kind]
  | skipped skips frame =>
    rcases frame with kind | kind
    · simp [Event.decode, kind, EventKind.decode, skips, pure, Except.pure]
    · simp [Event.decode, kind, EventKind.decode, skips, pure, Except.pure]
  | gameStart kind decoded => simp [Event.decode, kind, EventKind.decode, decoded]
  | gameEnd kind decoded => simp [Event.decode, kind, EventKind.decode, decoded]
  | framePre takes kind decoded => simp [Event.decode, kind, EventKind.decode, takes, decoded]
  | framePost takes kind decoded => simp [Event.decode, kind, EventKind.decode, takes, decoded]

/-- All that decoding events in a row can come to: each event finds the slots that those before it
leave, and the calls stand in the order of the events. -/
inductive DecodesAll (options : Options) : Slots → List Event → List Call → Slots → Prop where
  | nil (slots : Slots) : DecodesAll options slots [] [] slots
  | cons {slots mid after : Slots} {event : Event} {events : List Event} {call : Option Call}
    {calls : List Call} (first : Decodes options slots event call mid)
    (rest : DecodesAll options mid events calls after) :
    DecodesAll options slots (event :: events) (call.toList ++ calls) after

variable {options : Options} {slots after : Slots} {event : Event} {events : List Event}
  {calls : List Call}

theorem DecodesAll.decodeAll_eq (h : DecodesAll options slots events calls after) :
    decodeAll options slots events = .ok (calls, after) := by
  induction h with
  | nil slots => rfl
  | cons first _ ih =>
    simp only [decodeAll, first.decode_eq, ih, bind, Except.bind]
    rfl

theorem decodesAll_of_ok (h : decodeAll options slots events = .ok (calls, after)) :
    DecodesAll options slots events calls after := by
  induction events generalizing slots calls with
  | nil =>
    cases h
    exact .nil _
  | cons event events ih =>
    obtain ⟨⟨call, mid⟩, hd, h⟩ := Except.bind_eq_ok h
    obtain ⟨⟨later, _⟩, hr, h⟩ := Except.bind_eq_ok h
    cases h
    exact .cons (decodes_of_ok hd) (ih hr)

/-- Events come to one list of calls only. -/
theorem DecodesAll.calls_eq {calls' : List Call} {after' : Slots}
    (h : DecodesAll options slots events calls after)
    (h' : DecodesAll options slots events calls' after') : calls = calls' :=
  congrArg Prod.fst (Except.ok.inj (h.decodeAll_eq.symm.trans h'.decodeAll_eq))

theorem decodesAll_append_iff {front back : List Event} :
    DecodesAll options slots (front ++ back) calls after ↔
      ∃ early mid later, DecodesAll options slots front early mid ∧
        DecodesAll options mid back later after ∧ calls = early ++ later := by
  induction front generalizing slots calls with
  | nil =>
    constructor
    · intro h
      exact ⟨[], slots, calls, .nil slots, h, rfl⟩
    · intro h
      obtain ⟨early, mid, later, hf, hb, rfl⟩ := h
      cases hf
      exact hb
  | cons event front ih =>
    constructor
    · intro h
      cases h with
      | cons first rest =>
        obtain ⟨early, mid, later, hf, hb, rfl⟩ := ih.mp rest
        exact ⟨_, mid, later, .cons first hf, hb, (List.append_assoc ..).symm⟩
    · intro h
      obtain ⟨early, mid, later, hf, hb, rfl⟩ := h
      cases hf with
      | cons first rest =>
        rw [List.append_assoc]
        exact .cons first (ih.mpr ⟨_, mid, later, rest, hb, rfl⟩)

theorem decodesAll_concat_iff :
    DecodesAll options slots (events ++ [event]) calls after ↔
      ∃ early mid call, DecodesAll options slots events early mid ∧
        Decodes options mid event call after ∧ calls = early ++ call.toList := by
  rw [decodesAll_append_iff]
  constructor
  · intro h
    obtain ⟨early, mid, later, hf, hb, rfl⟩ := h
    cases hb with
    | cons first rest =>
      cases rest
      exact ⟨early, mid, _, hf, first, by rw [List.append_nil]⟩
  · intro h
    obtain ⟨early, mid, call, hf, hd, rfl⟩ := h
    exact ⟨early, mid, _, hf, .cons hd (.nil after), by rw [List.append_nil]⟩

theorem exists_of_isOk (h : (decodeAll options slots events).isOk = true) :
    ∃ calls after, DecodesAll options slots events calls after := by
  obtain ⟨⟨calls, after⟩, hd⟩ := Except.exists_of_isOk h
  exact ⟨calls, after, decodesAll_of_ok hd⟩

end Event

/-- How far a run is that has taken the size record and these events. -/
def Progress.after (record : SizeRecord) (events : List Event) : Progress where
  events := events.length
  length := Event.lengthAfter record events
  ended := decide (Event.EndsGame events)

theorem Progress.length_after (record : SizeRecord) (events : List Event) :
    (after record events).length = Event.lengthAfter record events := rfl

theorem Progress.goesOn_after_iff {record : SizeRecord} {events : List Event} {rawLength : Int} :
    (after record events).goesOn rawLength = true ↔
      (rawLength = 0 ∨ (Event.lengthAfter record events : Int) < rawLength) ∧
        ¬Event.EndsGame events := by
  unfold goesOn
  rw [Bool.and_eq_true, Bool.or_eq_true, beq_iff_eq, decide_eq_true_iff, Bool.not_eq_true']
  exact and_congr_right fun _ => decide_eq_false_iff_not

/-- What a run of the event loop can have behind it: the events, the calls made for them, and the
slots that they leave. The loop goes on only below the declared length and before a game ends. -/
structure Passed (options : Options) (rawLength : Int) (record : SizeRecord)
    (events : List Event) (calls : List Call) (slots : Slots) : Prop where
  fits : ∀ event ∈ events, event.Fits record.table
  decoded : Event.DecodesAll options .initial events calls slots
  unended : ∀ event ∈ events.dropLast, event.kind ≠ some .gameEnd
  short : rawLength ≠ 0 →
    ∀ j < events.length, (Event.lengthAfter record (events.take j) : Int) < rawLength

namespace Passed

variable {options : Options} {rawLength : Int} {record : SizeRecord} {events : List Event}
  {calls : List Call} {slots : Slots}

theorem nil : Passed options rawLength record [] [] .initial where
  fits _ h := absurd h List.not_mem_nil
  decoded := .nil _
  unended _ h := absurd h List.not_mem_nil
  short _ j h := absurd h (Nat.not_lt_zero j)

/-- Another event may follow as long as the loop goes on. -/
theorem concat (h : Passed options rawLength record events calls slots) {event : Event}
    {call : Option Call} {after : Slots}
    (goesOn : (Progress.after record events).goesOn rawLength = true)
    (fits : event.Fits record.table) (decoded : event.Decodes options slots call after) :
    Passed options rawLength record (events ++ [event]) (calls ++ call.toList) after := by
  obtain ⟨hl, he⟩ := Progress.goesOn_after_iff.mp goesOn
  refine ⟨?_, Event.decodesAll_concat_iff.mpr ⟨calls, slots, call, h.decoded, decoded, rfl⟩, ?_, ?_⟩
  · intro e hm
    rcases List.mem_append.mp hm with hm | hm
    · exact h.fits e hm
    · rw [List.mem_singleton.mp hm]
      exact fits
  · rw [List.dropLast_concat]
    intro e hm hk
    obtain ⟨i, hi, rfl⟩ := List.getElem_of_mem hm
    by_cases hn : i + 1 < events.length
    · refine h.unended events[i] ?_ hk
      rw [List.dropLast_eq_take]
      exact List.mem_take_iff_getElem.mpr ⟨i, by omega, rfl⟩
    · apply he
      rw [Event.EndsGame, List.getLast?_eq_getElem?, show events.length - 1 = i by omega,
        List.getElem?_eq_getElem hi, Option.bind_some, hk]
  · intro h0 j hj
    rw [List.length_append, List.length_singleton] at hj
    rcases Nat.lt_or_eq_of_le (Nat.le_of_lt_succ hj) with hj | rfl
    · rw [List.take_append_of_le_length (by omega)]
      exact h.short h0 j hj
    · rw [List.take_left]
      exact hl.resolve_left h0

/-- The last event was taken when the loop went on after those before it. -/
theorem of_concat {event : Event}
    (h : Passed options rawLength record (events ++ [event]) calls slots) :
    ∃ early mid call, Passed options rawLength record events early mid ∧
      (Progress.after record events).goesOn rawLength = true ∧ event.Fits record.table ∧
      event.Decodes options mid call slots ∧ calls = early ++ call.toList := by
  obtain ⟨early, mid, call, hf, hd, rfl⟩ := Event.decodesAll_concat_iff.mp h.decoded
  have hu := h.unended
  rw [List.dropLast_concat] at hu
  refine ⟨early, mid, call, ⟨?_, hf, ?_, ?_⟩, Progress.goesOn_after_iff.mpr ⟨?_, ?_⟩, ?_, hd, rfl⟩
  · exact fun e hm => h.fits e (List.mem_append_left _ hm)
  · exact fun e hm => hu e (List.dropLast_subset _ hm)
  · intro h0 j hj
    have hs := h.short h0 j (by rw [List.length_append]; omega)
    rwa [List.take_append_of_le_length (by omega)] at hs
  · by_cases h0 : rawLength = 0
    · exact .inl h0
    · have hs := h.short h0 events.length (by rw [List.length_append, List.length_singleton]; omega)
      rw [List.take_left] at hs
      exact .inr hs
  · intro he
    obtain ⟨last, hl, hk⟩ := Option.bind_eq_some_iff.mp he
    exact hu last (List.mem_of_getLast? hl) hk
  · exact h.fits event (List.mem_append_right _ (List.mem_singleton.mpr rfl))

end Passed

end Replay
