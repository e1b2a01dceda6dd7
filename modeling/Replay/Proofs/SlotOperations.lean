import Replay.Proofs.SlotIsolation
import Replay.Stream.Operation

/-!
What the uses of one set of slots leave in it. A use changes the slots only when it confirms
something, and then just the slot that this is for. So after any uses, some of which have failed, the
slots are those that the confirmations among them give alone.
-/

namespace Replay

/-- Whom something is confirmed for, and what it is. -/
structure Confirmation where
  id : FrameId
  character : Int
  action : ActionState

/-- What a sound event after a frame confirms. -/
def FrameEvent.confirmation (post : FrameEvent Post) : Confirmation where
  id := post.id
  character := post.event.character
  action := post.event.state

/-- What is confirmed when a sink is told this. -/
def Call.confirmation? : Call → Option Confirmation
  | .framePost post => some post.confirmation
  | .framePre _ | .gameStart _ | .gameEnd _ | .metadata _ => none

/-- The slots after some confirmations. -/
def Slots.replay (slots : Slots) (confirmations : List Confirmation) : Except Cause Slots :=
  confirmations.foldlM (fun slots c => slots.update c.id c.character c.action) slots

namespace Slots

variable {slots after : Slots}

@[simp] theorem replay_nil (slots : Slots) : slots.replay [] = .ok slots := rfl

@[simp] theorem replay_singleton (slots : Slots) (c : Confirmation) :
    slots.replay [c] = slots.update c.id c.character c.action := by
  simp [replay]

/-- Confirmations go on from the slots that those before them have left. -/
theorem replay_append {early late : List Confirmation} (h : slots.replay early = .ok after) :
    slots.replay (early ++ late) = after.replay late := by
  unfold replay at h ⊢
  rw [List.foldlM_append, h]
  rfl

end Slots

namespace Run

variable {s t : Session} {id : FrameId} {character : Int} {action : ActionState}

theorem run_confirm_of_slot {slot : Fin 8} (h : id.slot = .ok slot) :
    (confirm id character action).run s =
      (.ok ((s.slots.get slot).next character action), { s with
        slots := s.slots.set slot ((s.slots.get slot).next character action) slot.isLt }) := by
  have hupdate : s.slots.update id character action =
      .ok (s.slots.set slot ((s.slots.get slot).next character action) slot.isLt) := by
    rw [Slots.update, h]
    rfl
  have hfind : Slots.find
      (s.slots.set slot ((s.slots.get slot).next character action) slot.isLt) id =
        .ok ((s.slots.get slot).next character action) := Slots.find_set_self h
  simp only [confirm, Decoder.run_bind, slots, hupdate, Decoder.ofChecked, Decoder.run_pure,
    setSlots, hfind]

theorem run_confirm_of_slot_error {cause : Cause} (h : id.slot = .error cause) :
    (confirm id character action).run s = (.error (.ofCause cause), s) := by
  have hupdate : s.slots.update id character action = .error cause := by
    rw [Slots.update, h]
    rfl
  simp only [confirm, Decoder.run_bind, slots, hupdate, Decoder.ofChecked, Decoder.reject,
    Decoder.run_fail]

/-- What is confirmed is confirmed in full, or the run fails and leaves all as it was. -/
theorem confirm_run {result : Except Failure SlotState}
    (h : (confirm id character action).run s = (result, t)) :
    t.calls = s.calls ∧
      ((∃ e, result = .error e ∧ t.slots = s.slots) ∨
        ∃ state, result = .ok state ∧ s.slots.update id character action = .ok t.slots) := by
  cases hslot : id.slot with
  | error cause =>
    rw [run_confirm_of_slot_error hslot] at h
    cases h
    exact ⟨rfl, .inl ⟨_, rfl, rfl⟩⟩
  | ok slot =>
    rw [run_confirm_of_slot hslot] at h
    cases h
    refine ⟨rfl, .inr ⟨_, rfl, ?_⟩⟩
    rw [Slots.update, hslot]
    rfl

end Run

/-- An event confirms what the call for it tells, and nothing else. -/
theorem Event.Decodes.confirms {options : Options} {slots after : Slots} {event : Event}
    {call : Option Call} (h : event.Decodes options slots call after) :
    slots.replay (call.bind Call.confirmation?).toList = .ok after := by
  cases h with
  | unknown | skipped | gameStart | gameEnd | framePre => rfl
  | framePost _ _ decoded =>
    simpa [Call.confirmation?, FrameEvent.confirmation] using
      (Post.ofPayload_eq_ok_iff.mp decoded).2

/-- With frames skipped there is no call that confirms anything. -/
theorem Event.Decodes.confirmation?_of_skipping {options : Options} {slots after : Slots} {event : Event}
    {call : Option Call} (hskip : options.skipFrames = true)
    (h : event.Decodes options slots call after) :
    call.bind Call.confirmation? = none := by
  cases h with
  | unknown | skipped | gameStart | gameEnd | framePre => rfl
  | framePost takes =>
    rw [hskip] at takes
    cases takes

namespace Run

variable {sink : Sink} {options : Options} {table : SizeTable} {index : Option Int} {s t : Session}

/-- Taking and decoding an event that fails leaves the slots as they were. -/
theorem readRecord_error_slots {e : Failure}
    (h : (readRecord options table).run s = (.error e, t)) : t.slots = s.slots := by
  obtain ⟨notes, hr⟩ := run_readRecord options table s
  rw [h] at hr
  split at hr
  · cases hr
  · cases hr
    rfl

/-- However an event comes to its end, there is at most one call for it, and the slots are left as
that call says, even if the sink has raised in it. -/
theorem readEvent_run {result : Except Failure EventRecord}
    (h : (readEvent sink options table index).run s = (result, t)) :
    (t.slots = s.slots ∧ t.calls = s.calls) ∨
      ∃ (event : Event) (call : Option Call),
        event.Decodes options s.slots call t.slots ∧
        t.calls.toList = s.calls.toList ++ call.toList := by
  cases result with
  | ok record =>
    obtain ⟨event, -, htakes, hcalls⟩ := readEvent_ok h
    exact .inr ⟨event, record.call, htakes.decoded, hcalls⟩
  | error e =>
    rcases readEvent_error h with ⟨f, hrecord, -⟩ | ⟨record, u, call, hrecord, hcall, -, rfl⟩
    · exact .inl ⟨readRecord_error_slots hrecord, (readRecord_error hrecord).2⟩
    · obtain ⟨event, -, htakes, hcalls⟩ := readRecord_ok hrecord
      refine .inr ⟨event, record.call, htakes.decoded, ?_⟩
      rw [Array.toList_push, hcalls, hcall]
      rfl

end Run

theorem Decoder.map_run {σ α β : Type} [Feed σ] {f : α → β} {d : Decoder σ α} {s t : σ}
    {result : Except Failure β} (h : (f <$> d).run s = (result, t)) :
    ∃ mapped, d.run s = (mapped, t) ∧ result = mapped.map f := by
  rw [map_eq_pure_bind, run_bind] at h
  rcases hd : d.run s with ⟨_ | _, _⟩ <;> rw [hd] at h <;> cases h
  · exact ⟨_, rfl, rfl⟩
  · exact ⟨_, rfl, rfl⟩

namespace Operation

/-- What an operation has confirmed, as it shows: decoding an event after a frame and an update
confirm something if they succeed, and an event of a stream confirms what the sink is told. -/
def confirmation? (operation : Operation) (outcome : Except Failure Answer × Session) :
    Option Confirmation :=
  match operation, outcome with
  | .framePost _, (.ok (.post post), _) => some post.confirmation
  | .update id character action, (.ok _, _) => some ⟨id, character, action⟩
  | .readEvent .., (_, after) => after.calls.toList.findSome? Call.confirmation?
  | _, _ => none

/-- The slots after some operations. -/
def slotsAfter (slots : Slots) (operations : List Operation) : Slots :=
  operations.foldl (fun slots operation => (operation.run slots).2.slots) slots

/-- What some operations confirm one after another. -/
def confirmations (slots : Slots) : List Operation → List Confirmation
  | [] => []
  | operation :: operations =>
    (operation.confirmation? (operation.run slots)).toList ++
      confirmations (operation.run slots).2.slots operations

variable {slots : Slots} {result : Except Failure Answer} {t : Session}

theorem framePre_run {payload : Bytes} (h : (framePre payload).run slots = (result, t)) :
    t.slots = slots := by
  obtain ⟨mapped, hread, -⟩ := Decoder.map_run h
  exact (Run.ofReader_run hread).2.1

theorem predict_run {id : FrameId} (h : (predict id).run slots = (result, t)) :
    t.slots = slots := by
  obtain ⟨mapped, hpredict, -⟩ := Decoder.map_run h
  simp only [Run.predict, Decoder.run_bind, Run.slots] at hpredict
  cases hslot : slots.predict id <;> rw [hslot] at hpredict <;> cases hpredict <;> rfl

/-- Reading a payload and confirming it at the end is the same as deciding on it as a whole. -/
theorem run_framePost (payload : Bytes) (slots : Slots) :
    (((framePost payload).run slots).1, ((framePost payload).run slots).2.slots) =
      match Post.ofPayload slots payload with
      | .ok (post, after) => (.ok (.post post), after)
      | .error e => (.error e, slots) := by
  rcases hread : Post.reader.run (.ofBytes payload) with ⟨e | post, u⟩
  · have hrun : (Run.ofReader Post.reader).run { source := .ofBytes payload, slots } =
        (.error e, { source := u, slots }) := by
      simp only [Run.ofReader, hread]
    simp only [run, steps, source, map_eq_pure_bind, Decoder.run_bind, Run.readPost, hrun,
      Post.ofPayload, Reader.onBytes, hread]
    rfl
  · have hrun : (Run.ofReader Post.reader).run { source := .ofBytes payload, slots } =
        (.ok post, { source := u, slots }) := by
      simp only [Run.ofReader, hread]
    simp only [run, steps, source, map_eq_pure_bind, Decoder.run_bind, Run.readPost, hrun,
      Post.ofPayload, Reader.onBytes, hread]
    cases hslot : post.id.slot with
    | error cause =>
      rw [Run.run_confirm_of_slot_error hslot]
      simp only [bind, Except.bind, Slots.update, hslot]
      rfl
    | ok slot =>
      rw [Run.run_confirm_of_slot hslot]
      simp only [bind, Except.bind, Slots.update, hslot]
      rfl

/-- Decoding an event after a frame confirms it, or fails and leaves all slots as they were. -/
theorem framePost_run {payload : Bytes} (h : (framePost payload).run slots = (result, t)) :
    (∃ e, result = .error e ∧ t.slots = slots) ∨
      ∃ post, result = .ok (.post post) ∧
        slots.update post.id post.event.character post.event.state = .ok t.slots := by
  have hrun := run_framePost payload slots
  rw [h] at hrun
  cases hpost : Post.ofPayload slots payload with
  | error e =>
    rw [hpost] at hrun
    obtain ⟨hresult, hkept⟩ := Prod.ext_iff.mp hrun
    exact .inl ⟨e, hresult, hkept⟩
  | ok decoded =>
    obtain ⟨post, after⟩ := decoded
    rw [hpost] at hrun
    obtain ⟨hresult, hafter⟩ := Prod.ext_iff.mp hrun
    exact .inr ⟨post, hresult, (Post.ofPayload_eq_ok_iff.mp hpost).2.trans
      (congrArg Except.ok hafter.symm)⟩

/-- An update confirms what it is given, or fails and leaves all slots as they were. -/
theorem update_run {id : FrameId} {character : Int} {action : ActionState}
    (h : (update id character action).run slots = (result, t)) :
    (∃ e, result = .error e ∧ t.slots = slots) ∨
      ∃ state, result = .ok (.state state) ∧ slots.update id character action = .ok t.slots := by
  obtain ⟨mapped, hconfirm, rfl⟩ := Decoder.map_run h
  obtain ⟨-, ⟨e, rfl, hkept⟩ | ⟨state, rfl, hupdate⟩⟩ := Run.confirm_run hconfirm
  · exact .inl ⟨e, rfl, hkept⟩
  · exact .inr ⟨state, rfl, hupdate⟩

/-- An event of a stream leaves the slots as its call tells, however it comes to its end. -/
theorem readEvent_run {sink : Sink} {options : Options} {table : SizeTable} {index : Option Int}
    {source : Source} (h : (readEvent sink options table index source).run slots = (result, t)) :
    (t.slots = slots ∧ t.calls = #[]) ∨
      ∃ (event : Event) (call : Option Call), event.Decodes options slots call t.slots ∧
        t.calls = call.toList.toArray := by
  obtain ⟨mapped, hread, -⟩ := Decoder.map_run h
  rcases Run.readEvent_run hread with hkept | ⟨event, call, hdecoded, hcalls⟩
  · exact .inl hkept
  · exact .inr ⟨event, call, hdecoded, Array.toList_inj.mp (by rw [hcalls]; rfl)⟩

/-- The slots after an operation are what it confirms makes of those before. -/
theorem run_confirms {operation : Operation} (h : operation.run slots = (result, t)) :
    slots.replay (operation.confirmation? (result, t)).toList = .ok t.slots := by
  cases operation with
  | framePre payload =>
    rw [framePre_run h]
    rfl
  | predict id =>
    rw [predict_run h]
    rfl
  | framePost payload =>
    rcases framePost_run h with ⟨e, rfl, hkept⟩ | ⟨post, rfl, hupdate⟩
    · rw [hkept]
      rfl
    · simpa [confirmation?, FrameEvent.confirmation] using hupdate
  | update id character action =>
    rcases update_run h with ⟨e, rfl, hkept⟩ | ⟨state, rfl, hupdate⟩
    · rw [hkept]
      rfl
    · simpa [confirmation?] using hupdate
  | readEvent sink options table index source =>
    rcases readEvent_run h with ⟨hkept, hcalls⟩ | ⟨event, call, hdecoded, hcalls⟩
    · simp [confirmation?, hcalls, hkept]
    · have hconfirms := hdecoded.confirms
      cases call <;> simpa [confirmation?, hcalls] using hconfirms

/-- After any operations the slots are what the confirmations among them make of the first ones. -/
theorem replay_confirmations (operations : List Operation) (slots : Slots) :
    slots.replay (confirmations slots operations) = .ok (slotsAfter slots operations) := by
  induction operations generalizing slots with
  | nil => rfl
  | cons operation operations ih =>
    rw [confirmations, Slots.replay_append (run_confirms Prod.mk.eta.symm), ih]
    rfl

/-- What is confirmed changes no slot but its own. -/
theorem get_of_confirms {operation : Operation} {c : Confirmation}
    (h : operation.run slots = (result, t)) (hc : operation.confirmation? (result, t) = some c)
    {slot : Fin 8} (hother : c.id.slot ≠ .ok slot) : t.slots.get slot = slots.get slot := by
  have hupdate := run_confirms h
  rw [hc, Option.toList_some, Slots.replay_singleton] at hupdate
  obtain ⟨own, hown, hafter⟩ := Slots.update_ok hupdate
  rw [hafter]
  apply Slots.get_set_other
  rintro rfl
  exact hother hown

section ReadEvent

variable {sink : Sink} {options : Options} {table : SizeTable} {index : Option Int}
  {source : Source}

theorem readEvent_of_record_error {e : Failure} {u : Session}
    (h : (readEvent sink options table index source).run slots = (result, t))
    (hrecord : (Run.readRecord options table).run { source, slots } = (.error e, u)) :
    t.slots = slots := by
  obtain ⟨mapped, hread, -⟩ := Decoder.map_run h
  have hfails : ((Run.readRecord options table).annotated index).run { source, slots } =
      (.error (e.annotate index u.source.offset), u) := by
    rw [Decoder.run_annotated, hrecord]
    rfl
  rw [Run.readEvent, Operation.source, Decoder.run_bind, hfails] at hread
  cases hread
  exact Run.readRecord_error_slots hrecord

theorem readEvent_of_skipping (hskip : options.skipFrames = true)
    (h : (readEvent sink options table index source).run slots = (result, t)) :
    t.slots = slots := by
  rcases readEvent_run h with ⟨hkept, -⟩ | ⟨event, call, hdecoded, -⟩
  · exact hkept
  · have hconfirms := hdecoded.confirms
    rw [hdecoded.confirmation?_of_skipping hskip] at hconfirms
    exact (Except.ok.inj hconfirms).symm

/-- What the sink is told of an event after a frame has been confirmed, even if it raises then. -/
theorem readEvent_of_told {post : FrameEvent Post}
    (h : (readEvent sink options table index source).run slots = (result, t))
    (htold : .framePost post ∈ t.calls.toList) :
    slots.update post.id post.event.character post.event.state = .ok t.slots := by
  rcases readEvent_run h with ⟨-, hcalls⟩ | ⟨event, call, hdecoded, hcalls⟩
  · rw [hcalls] at htold
    cases htold
  · have hconfirms := hdecoded.confirms
    rw [hcalls, List.toList_toArray, Option.mem_toList] at htold
    rw [htold] at hconfirms
    simpa [Call.confirmation?, FrameEvent.confirmation] using hconfirms

end ReadEvent

/-- The slots after any uses of them. They are those that the confirmations among the uses make of
fresh slots. An event before a frame and a prediction change nothing, nor does what fails; what
succeeds changes just the slot that it is for. An event of a stream changes nothing if it is not
decoded or is skipped, and what it confirms stays confirmed whatever the sink does. -/
theorem slotsAfter_confirmed :
    (∀ operations : List Operation, Slots.replay .initial (confirmations .initial operations) =
      .ok (slotsAfter .initial operations)) ∧
    (∀ (slots : Slots) (payload : Bytes), ((framePre payload).run slots).2.slots = slots) ∧
    (∀ (slots : Slots) (id : FrameId), ((predict id).run slots).2.slots = slots) ∧
    (∀ (slots : Slots) (payload : Bytes) (e : Failure),
      ((framePost payload).run slots).1 = .error e →
        ((framePost payload).run slots).2.slots = slots) ∧
    (∀ (slots : Slots) (id : FrameId) (character : Int) (action : ActionState) (e : Failure),
      ((update id character action).run slots).1 = .error e →
        ((update id character action).run slots).2.slots = slots) ∧
    (∀ (slots : Slots) (operation : Operation) (c : Confirmation),
      operation.confirmation? (operation.run slots) = some c →
        ∀ slot : Fin 8, c.id.slot ≠ .ok slot →
          (operation.run slots).2.slots.get slot = slots.get slot) ∧
    ∀ (slots : Slots) (sink : Sink) (options : Options) (table : SizeTable) (index : Option Int)
      (source : Source),
      (∀ e t, (Run.readRecord options table).run { source, slots } = (.error e, t) →
        ((readEvent sink options table index source).run slots).2.slots = slots) ∧
      (options.skipFrames = true →
        ((readEvent sink options table index source).run slots).2.slots = slots) ∧
      ∀ post, .framePost post ∈
          ((readEvent sink options table index source).run slots).2.calls.toList →
        slots.update post.id post.event.character post.event.state =
          .ok ((readEvent sink options table index source).run slots).2.slots := by
  refine ⟨fun operations => replay_confirmations operations .initial, ?_, ?_, ?_, ?_, ?_, ?_⟩
  · intro slots payload
    exact framePre_run Prod.mk.eta.symm
  · intro slots id
    exact predict_run Prod.mk.eta.symm
  · intro slots payload e he
    rcases framePost_run Prod.mk.eta.symm with ⟨-, -, hkept⟩ | ⟨post, hpost, -⟩
    · exact hkept
    · cases he.symm.trans hpost
  · intro slots id character action e he
    rcases update_run Prod.mk.eta.symm with ⟨-, -, hkept⟩ | ⟨state, hstate, -⟩
    · exact hkept
    · cases he.symm.trans hstate
  · intro slots operation c hc slot hother
    exact get_of_confirms Prod.mk.eta.symm hc hother
  · intro slots sink options table index source
    exact ⟨fun e t hrecord => readEvent_of_record_error Prod.mk.eta.symm hrecord,
      fun hskip => readEvent_of_skipping hskip Prod.mk.eta.symm,
      fun post htold => readEvent_of_told Prod.mk.eta.symm htold⟩

/-- Zelda turns into Sheik in one event after a frame, in one that is cut short, and in one that the
sink raises in. The first and the last of them are confirmed. -/
def turningTwice : List Operation :=
  [.framePost Run.turning.payload, .framePost Run.turning.payload.dropLast,
    .readEvent (fun _ => some .silent) {} [(0x38, 33)] none (.ofBytes Run.turning.bytes)]

theorem slotsAfter_confirmed_turningTwice :
    (confirmations .initial turningTwice).length = 2 ∧
      Slots.replay .initial (confirmations .initial turningTwice) =
        .ok (slotsAfter .initial turningTwice) ∧
      ((slotsAfter .initial turningTwice).get 0).age = 1 :=
  ⟨by decide +kernel, slotsAfter_confirmed.1 turningTwice, by decide +kernel⟩

end Operation

end Replay
