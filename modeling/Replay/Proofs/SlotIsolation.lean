import Replay.Proofs.FramePayload
import Replay.Proofs.Prediction

/-!
The slots of a raw stream apart from each other. An event touches the slot that it is addressed to
and no other, and what it tells the sink depends on that slot alone. So the calls for a slot are
those that its events would make on their own, whatever else the stream holds.
-/

namespace Replay

/-- Whether it is the leader or the follower of the port. -/
def FrameId.isOf (port : Int) (isFollower : Bool) (id : FrameId) : Bool :=
  id.port == port && id.isFollower == isFollower

namespace Call

/-- Whether the call is about a frame of the slot. -/
def isOf (port : Int) (isFollower : Bool) : Call → Bool
  | .framePre event => event.id.isOf port isFollower
  | .framePost event => event.id.isOf port isFollower
  | .gameStart _ | .gameEnd _ | .metadata _ => false

/-- The same call with index zero. -/
def withoutIndex : Call → Call
  | .framePre event => .framePre (Pre.withIndex event.id.withoutIndex event.event)
  | .framePost event => .framePost (Post.withIndex event.id.withoutIndex event.event)
  | call => call

end Call

/-- The two hold the same for the leader or the follower of the port. -/
def Slots.AgreeAt (port : Int) (isFollower : Bool) (slots slots' : Slots) : Prop :=
  ∀ id : FrameId, id.isOf port isFollower = true → slots'.find id = slots.find id

section

variable {port : Int} {isFollower : Bool}

theorem FrameId.isOf_iff {id : FrameId} :
    id.isOf port isFollower = true ↔ id.port = port ∧ id.isFollower = isFollower := by
  rw [isOf, Bool.and_eq_true, beq_iff_eq, beq_iff_eq]

/-- Only port and follower decide on the slot. -/
theorem FrameId.slot_congr {id id' : FrameId} (hp : id'.port = id.port)
    (hf : id'.isFollower = id.isFollower) : id'.slot = id.slot := by
  simp only [slot, hp, hf]

theorem Slots.find_of_slot {slots : Slots} {id : FrameId} {slot : Fin 8} (h : id.slot = .ok slot) :
    slots.find id = .ok (slots.get slot) := by
  rw [find, h]
  rfl

theorem Slots.find_set_self {slots : Slots} {id : FrameId} {slot : Fin 8} {state : SlotState}
    (h : id.slot = .ok slot) : Slots.find (slots.set slot state slot.isLt) id = .ok state := by
  rw [find_of_slot h, get_set_self]

theorem Slots.find_set_other {slots : Slots} {id : FrameId} {own slot : Fin 8} {state : SlotState}
    (h : id.slot = .ok slot) (hne : own ≠ slot) :
    Slots.find (slots.set own state own.isLt) id = slots.find id := by
  rw [find_of_slot h, find_of_slot h, get_set_other hne]

theorem Slots.predict_withoutIndex (slots : Slots) (id : FrameId) :
    slots.predict id.withoutIndex = slots.predict id := rfl

theorem Slots.update_withoutIndex (slots : Slots) (id : FrameId) (character : Int)
    (action : ActionState) :
    slots.update id.withoutIndex character action = slots.update id character action := rfl

namespace Slots.AgreeAt

variable {slots slots' after : Slots} {id : FrameId} {character : Int} {action : ActionState}

theorem refl (slots : Slots) : AgreeAt port isFollower slots slots :=
  fun _ _ => rfl

theorem trans {slots'' : Slots} (h : AgreeAt port isFollower slots slots')
    (h' : AgreeAt port isFollower slots' slots'') : AgreeAt port isFollower slots slots'' :=
  fun id hid => (h' id hid).trans (h id hid)

theorem symm (h : AgreeAt port isFollower slots slots') : AgreeAt port isFollower slots' slots :=
  fun id hid => (h id hid).symm

theorem predict (h : AgreeAt port isFollower slots slots')
    (hid : id.isOf port isFollower = true) : slots'.predict id = slots.predict id := by
  rw [Slots.predict, Slots.predict, h id hid]

/-- What is confirmed in the slot itself is confirmed alike. -/
theorem update (h : AgreeAt port isFollower slots slots') (hid : id.isOf port isFollower = true)
    (hu : slots.update id character action = .ok after) :
    ∃ after', slots'.update id character action = .ok after' ∧
      AgreeAt port isFollower after after' := by
  obtain ⟨slot, hslot, rfl⟩ := update_ok hu
  have hsame : slots'.get slot = slots.get slot := by
    have hfind := h id hid
    rw [find_of_slot hslot, find_of_slot hslot] at hfind
    exact Except.ok.inj hfind
  refine ⟨slots'.set slot ((slots'.get slot).next character action) slot.isLt, ?_, ?_⟩
  · rw [Slots.update, hslot]
    rfl
  · intro id' hid'
    obtain ⟨hp, hf⟩ := FrameId.isOf_iff.mp hid
    obtain ⟨hp', hf'⟩ := FrameId.isOf_iff.mp hid'
    have hslot' : id'.slot = .ok slot :=
      (FrameId.slot_congr (hp'.trans hp.symm) (hf'.trans hf.symm)).trans hslot
    rw [find_set_self hslot', find_set_self hslot', hsame]

/-- What is confirmed in another slot leaves this one as it was. -/
theorem of_update (hid : ¬id.isOf port isFollower = true)
    (hu : slots.update id character action = .ok after) :
    AgreeAt port isFollower slots after := by
  obtain ⟨own, hown, rfl⟩ := update_ok hu
  intro id' hid'
  cases hslot : id'.slot with
  | error cause => rw [find, find, hslot]; rfl
  | ok slot =>
    have hne : own ≠ slot := by
      rintro rfl
      obtain ⟨hp, hf⟩ := FrameId.slot_inj hown hslot
      obtain ⟨hp', hf'⟩ := FrameId.isOf_iff.mp hid'
      exact hid (FrameId.isOf_iff.mpr ⟨hp.trans hp', hf.trans hf'⟩)
    exact find_set_other hslot hne

end Slots.AgreeAt

end

namespace Event

variable {port : Int} {isFollower : Bool} {options : Options} {slots slots' after : Slots}
  {event event' : Event}

/-- Whether the event is about a frame of the slot. -/
def isOf (port : Int) (isFollower : Bool) (event : Event) : Bool :=
  decide event.IsFrame && (FrameId.ofPayload event.payload).isOf port isFollower

/-- What of an event its decoding looks at. -/
def content (event : Event) : Option EventKind × Bytes :=
  (event.kind, event.payload)

/-- The events are of one kind, and their payloads are the same but for the index. -/
structure SameButIndex (event event' : Event) : Prop where
  kind : event'.kind = event.kind
  length : event'.payload.length = event.payload.length
  payload : event'.payload.drop 4 = event.payload.drop 4

theorem isOf_iff :
    event.isOf port isFollower = true ↔
      event.IsFrame ∧ (FrameId.ofPayload event.payload).isOf port isFollower = true := by
  rw [isOf, Bool.and_eq_true, decide_eq_true_iff]

/-- An event of a slot does with other slots what it does with these, if they agree at its own. -/
theorem Decodes.own {call : Option Call} (h : event.Decodes options slots call after)
    (hskip : options.skipFrames = false) (hown : event.isOf port isFollower = true)
    (hagree : slots.AgreeAt port isFollower slots') :
    ∃ after', event.Decodes options slots' call after' ∧
      after.AgreeAt port isFollower after' ∧
      call.toList.filter (Call.isOf port isFollower) = call.toList := by
  obtain ⟨hframe, hid⟩ := isOf_iff.mp hown
  cases h with
  | unknown kind | gameStart kind | gameEnd kind => simp [IsFrame, kind] at hframe
  | skipped skips => simp [hskip] at skips
  | framePre takes kind decoded =>
    obtain ⟨hlength, pre, hpre, rfl⟩ := Pre.ofPayload_ok_iff.mp decoded
    rw [← hagree.predict hid] at hpre
    have decoded' := Pre.ofPayload_ok_iff.mpr ⟨hlength, pre, hpre, rfl⟩
    exact ⟨slots', .framePre takes kind decoded', hagree, List.filter_cons_of_pos hid⟩
  | framePost takes kind decoded =>
    obtain ⟨hlength, post, hpost, rfl, hu⟩ := Post.ofPayload_ok_iff.mp decoded
    obtain ⟨after', hu', hagree'⟩ := hagree.update hid hu
    have decoded' := Post.ofPayload_ok_iff.mpr ⟨hlength, post, hpost, rfl, hu'⟩
    exact ⟨after', .framePost takes kind decoded', hagree', List.filter_cons_of_pos hid⟩

/-- An event of another slot, or of none, leaves the slot alone and makes no call for it. -/
theorem Decodes.other {call : Option Call} (h : event.Decodes options slots call after)
    (hskip : options.skipFrames = false) (hother : ¬event.isOf port isFollower = true) :
    slots.AgreeAt port isFollower after ∧
      call.toList.filter (Call.isOf port isFollower) = [] := by
  have hid (hframe : event.IsFrame) :
      ¬(FrameId.ofPayload event.payload).isOf port isFollower = true :=
    fun hid => hother (isOf_iff.mpr ⟨hframe, hid⟩)
  cases h with
  | unknown | gameStart | gameEnd => exact ⟨.refl _, rfl⟩
  | skipped skips => simp [hskip] at skips
  | framePre _ kind decoded =>
    obtain ⟨-, pre, -, rfl⟩ := Pre.ofPayload_ok_iff.mp decoded
    exact ⟨.refl _, List.filter_cons_of_neg (hid (.inl kind))⟩
  | framePost _ kind decoded =>
    obtain ⟨-, post, -, rfl, hu⟩ := Post.ofPayload_ok_iff.mp decoded
    exact ⟨.of_update (hid (.inr kind)) hu, List.filter_cons_of_neg (hid (.inr kind))⟩

/-- The calls for a slot are those that its own events make, from any slots that agree at it. -/
theorem DecodesAll.filter {events : List Event} {calls : List Call}
    (h : DecodesAll options slots events calls after) (hskip : options.skipFrames = false)
    (hagree : slots.AgreeAt port isFollower slots') :
    ∃ after', DecodesAll options slots' (events.filter (isOf port isFollower))
      (calls.filter (Call.isOf port isFollower)) after' := by
  induction h generalizing slots' with
  | nil _ => exact ⟨slots', .nil slots'⟩
  | @cons _ _ _ event _ _ _ first _ ih =>
    rw [List.filter_append]
    by_cases hown : event.isOf port isFollower = true
    · obtain ⟨mid', first', hagree', hcall⟩ := first.own hskip hown hagree
      obtain ⟨after', rest'⟩ := ih hagree'
      rw [List.filter_cons_of_pos hown, hcall]
      exact ⟨after', .cons first' rest'⟩
    · obtain ⟨hmid, hcall⟩ := first.other hskip hown
      rw [List.filter_cons_of_neg hown, hcall, List.nil_append]
      exact ih (hmid.symm.trans hagree)

theorem Decodes.congr {call : Option Call} (h : event.Decodes options slots call after)
    (hcontent : event'.content = event.content) : event'.Decodes options slots call after := by
  obtain ⟨hkind, hpayload⟩ := Prod.ext_iff.mp hcontent
  change event'.kind = event.kind at hkind
  change event'.payload = event.payload at hpayload
  apply decodes_of_ok
  rw [Event.decode, hkind, hpayload]
  exact h.decode_eq

theorem DecodesAll.congr {events events' : List Event} {calls : List Call}
    (h : DecodesAll options slots events calls after)
    (hcontent : events'.map content = events.map content) :
    DecodesAll options slots events' calls after := by
  induction h generalizing events' with
  | nil _ =>
    rw [List.map_eq_nil_iff.mp hcontent]
    exact .nil _
  | cons first _ ih =>
    obtain ⟨event', later, rfl, hevent, hlater⟩ := List.map_eq_cons_iff.mp hcontent
    exact .cons (first.congr hevent) (ih hlater)

/-- The index goes into the call and nowhere else. -/
theorem SameButIndex.decodes (hskip : options.skipFrames = false)
    (hown : event.isOf port isFollower = true) (hsame : SameButIndex event event')
    {call : Option Call} (h : event.Decodes options slots call after) :
    ∃ call', event'.Decodes options slots call' after ∧
      call'.toList.map Call.withoutIndex = call.toList.map Call.withoutIndex := by
  have hid := FrameId.withoutIndex_ofPayload hsame.payload
  have hskipped := FrameId.skip_ofBytes hsame.payload
  obtain ⟨hframe, -⟩ := isOf_iff.mp hown
  cases h with
  | unknown kind | gameStart kind | gameEnd kind => simp [IsFrame, kind] at hframe
  | skipped skips => simp [hskip] at skips
  | framePre takes kind decoded =>
    obtain ⟨hlength, pre, hpre, rfl⟩ := Pre.ofPayload_ok_iff.mp decoded
    have hpredict : slots.predict (.ofPayload event'.payload) =
        slots.predict (.ofPayload event.payload) := by
      rw [← Slots.predict_withoutIndex, hid, Slots.predict_withoutIndex]
    rw [← hpredict, ← hskipped] at hpre
    have decoded' := Pre.ofPayload_ok_iff.mpr ⟨hsame.length ▸ hlength, pre, hpre, rfl⟩
    refine ⟨some (.framePre (Pre.withIndex (.ofPayload event'.payload) pre)), ?_, ?_⟩
    · exact .framePre takes (hsame.kind.trans kind) decoded'
    · exact congrArg (fun id => [Call.framePre (Pre.withIndex id pre)]) hid
  | framePost takes kind decoded =>
    obtain ⟨hlength, post, hpost, rfl, hu⟩ := Post.ofPayload_ok_iff.mp decoded
    have hupdate : slots.update (.ofPayload event'.payload) post.character post.state =
        slots.update (.ofPayload event.payload) post.character post.state := by
      rw [← Slots.update_withoutIndex, hid, Slots.update_withoutIndex]
    rw [← hskipped] at hpost
    have decoded' := Post.ofPayload_ok_iff.mpr
      ⟨hsame.length ▸ hlength, post, hpost, rfl, hupdate.trans hu⟩
    refine ⟨some (.framePost (Post.withIndex (.ofPayload event'.payload) post)), ?_, ?_⟩
    · exact .framePost takes (hsame.kind.trans kind) decoded'
    · exact congrArg (fun id => [Call.framePost (Post.withIndex id post)]) hid

theorem SameButIndex.decodesAll (hskip : options.skipFrames = false) {events events' : List Event}
    (hown : ∀ event ∈ events, event.isOf port isFollower = true)
    (hsame : List.Forall₂ SameButIndex events events') {calls : List Call}
    (h : DecodesAll options slots events calls after) :
    ∃ calls', DecodesAll options slots events' calls' after ∧
      calls'.map Call.withoutIndex = calls.map Call.withoutIndex := by
  induction hsame generalizing slots calls with
  | nil => exact ⟨calls, h, rfl⟩
  | cons hfirst _ ih =>
    obtain ⟨hfirstOwn, hrestOwn⟩ := List.forall_mem_cons.mp hown
    cases h with
    | cons first rest =>
      obtain ⟨call', first', hcall⟩ := hfirst.decodes hskip hfirstOwn first
      obtain ⟨later', rest', hlater⟩ := ih hrestOwn rest
      refine ⟨_, .cons first' rest', ?_⟩
      rw [List.map_append, List.map_append, hcall, hlater]

end Event

namespace Run

/-- Isolation of the slots. Two raw streams that are read without skipping make the same calls for
a slot if they hold the same frame events for it, and calls that differ in the index at most if
these events differ in the index at most, whatever else the streams hold. -/
theorem readRaw_isolates {sink sink' : Sink} {options : Options} {rawLength rawLength' : Int}
    {s s' t t' : Session} {n n' : Nat} (hskip : options.skipFrames = false)
    (h : (readRaw sink options rawLength).run s = (.ok n, t))
    (h' : (readRaw sink' options rawLength').run s' = (.ok n', t')) :
    (∃ entries events calls slots, RawBehind options rawLength s t entries events calls slots) ∧
    (∃ entries events calls slots,
      RawBehind options rawLength' s' t' entries events calls slots) ∧
    ∀ entries events calls slots entries' events' calls' slots',
      RawBehind options rawLength s t entries events calls slots →
      RawBehind options rawLength' s' t' entries' events' calls' slots' →
      ∀ port isFollower,
        ((events.filter (Event.isOf port isFollower)).map Event.content =
            (events'.filter (Event.isOf port isFollower)).map Event.content →
          calls.filter (Call.isOf port isFollower) =
            calls'.filter (Call.isOf port isFollower)) ∧
        (List.Forall₂ Event.SameButIndex (events.filter (Event.isOf port isFollower))
            (events'.filter (Event.isOf port isFollower)) →
          (calls.filter (Call.isOf port isFollower)).map Call.withoutIndex =
            (calls'.filter (Call.isOf port isFollower)).map Call.withoutIndex) := by
  obtain ⟨entries, events, calls, slots, hb, -⟩ := readRaw_ok h
  obtain ⟨entries', events', calls', slots', hb', -⟩ := readRaw_ok h'
  refine ⟨⟨entries, events, calls, slots, hb⟩, ⟨entries', events', calls', slots', hb'⟩, ?_⟩
  intro _ events calls _ _ events' calls' _ hb hb' port isFollower
  have hagree : Slots.initial.AgreeAt port isFollower .initial := .refl .initial
  obtain ⟨_, hown⟩ := hb.passed.decoded.filter hskip hagree
  obtain ⟨_, hown'⟩ := hb'.passed.decoded.filter hskip hagree
  constructor
  · intro hcontent
    exact hown.calls_eq (hown'.congr hcontent)
  · intro hsame
    obtain ⟨told, htold, hcalls⟩ := Event.SameButIndex.decodesAll hskip
      (fun event hm => (List.mem_filter.mp hm).2) hsame hown
    rw [hown'.calls_eq htold, hcalls]

/-- An event after a frame in the second port, with the last byte of its index. -/
def besides (index : UInt8) : Event where
  code := 0x38
  payload := [0, 0, 0, index, 1, 0, 2, 0, 14] ++ List.replicate 8 0 ++ [0x3F, 0x80, 0, 0] ++
    List.replicate 12 0

/-- The second port is confirmed after the first. -/
def besidesLast : List Event := [turning, besides 0, turned, ⟨0x39, [2]⟩]

/-- The second port is confirmed before the first and with another index. -/
def besidesFirst : List Event := [besides 5, turning, turned, ⟨0x39, [1]⟩]

/-- The first port has the same two events in both streams, and the second port has one that differs
in the index. -/
theorem readRaw_isolates_besides :
    ∃ (s s' t t' : Session) (n n' : Nat) (entries : List (UInt8 × UInt16))
      (calls calls' : List Call) (slots slots' : Slots),
      (readRaw .quiet {} 0).run s = (.ok n, t) ∧ (readRaw .quiet {} 0).run s' = (.ok n', t') ∧
      RawBehind {} 0 s t entries besidesLast calls slots ∧
      RawBehind {} 0 s' t' entries besidesFirst calls' slots' ∧
      (besidesLast.filter (Event.isOf 0 false)).map Event.content =
        (besidesFirst.filter (Event.isOf 0 false)).map Event.content ∧
      (calls.filter (Call.isOf 0 false)).length = 2 ∧
      calls.filter (Call.isOf 0 false) = calls'.filter (Call.isOf 0 false) ∧
      List.Forall₂ Event.SameButIndex (besidesLast.filter (Event.isOf 1 false))
        (besidesFirst.filter (Event.isOf 1 false)) ∧
      (calls.filter (Call.isOf 1 false)).map Call.withoutIndex =
        (calls'.filter (Call.isOf 1 false)).map Call.withoutIndex := by
  let entries : List (UInt8 × UInt16) := [(0x37, 58), (0x38, 33), (0x39, 1)]
  obtain ⟨calls, slots, hd⟩ := Event.exists_of_isOk
    (show (Event.decodeAll {} .initial besidesLast).isOk = true by decide +kernel)
  obtain ⟨calls', slots', hd'⟩ := Event.exists_of_isOk
    (show (Event.decodeAll {} .initial besidesFirst).isOk = true by decide +kernel)
  have hp : Passed {} 0 (.ofEntries entries) besidesLast calls slots :=
    ⟨by decide +kernel, hd, by decide +kernel, fun h0 => absurd rfl h0⟩
  have hp' : Passed {} 0 (.ofEntries entries) besidesFirst calls' slots' :=
    ⟨by decide +kernel, hd', by decide +kernel, fun h0 => absurd rfl h0⟩
  obtain ⟨t, hr, hb⟩ := run_readRaw_of_passed (by decide) hp (by decide +kernel)
    fun h0 => absurd rfl h0
  obtain ⟨t', hr', hb'⟩ := run_readRaw_of_passed (by decide) hp' (by decide +kernel)
    fun h0 => absurd rfl h0
  have hisolates := (readRaw_isolates rfl hr hr').2.2 _ _ _ _ _ _ _ _ hb hb'
  have hcontent : (besidesLast.filter (Event.isOf 0 false)).map Event.content =
      (besidesFirst.filter (Event.isOf 0 false)).map Event.content := by decide +kernel
  have hsame : List.Forall₂ Event.SameButIndex (besidesLast.filter (Event.isOf 1 false))
      (besidesFirst.filter (Event.isOf 1 false)) := .cons ⟨rfl, rfl, rfl⟩ .nil
  have hlength : (calls.filter (Call.isOf 0 false)).length = 2 := by
    have hcount : (Event.decodeAll {} .initial besidesLast).toOption.map
        (fun result => (result.1.filter (Call.isOf 0 false)).length) = some 2 := by decide +kernel
    rw [hd.decodeAll_eq] at hcount
    exact Option.some.inj hcount
  exact ⟨_, _, t, t', _, _, entries, calls, calls', slots, slots', hr, hr', hb, hb', hcontent,
    hlength, (hisolates 0 false).1 hcontent, hsame, (hisolates 1 false).2 hsame⟩

end Run

end Replay
