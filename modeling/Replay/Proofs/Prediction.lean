import Replay.Proofs.RawStream
import Replay.Proofs.SlotHistory

/-!
The prediction of characters over whole raw streams. The slots always hold what the events after
frames so far have confirmed, each slot by its own events alone, so the action state that an event
before a frame is delivered with follows from a window of those events.
-/

namespace Replay

theorem FrameId.slot_ok {id : FrameId} {slot : Fin 8} (h : id.slot = .ok slot) :
    0 ≤ id.port ∧ (slot : Nat) = 2 * id.port.toNat + id.isFollower.toNat := by
  unfold FrameId.slot at h
  split at h
  · rename_i hp
    cases h
    exact ⟨hp.1, rfl⟩
  · cases h

/-- A slot belongs to one port and one of leader and follower. -/
theorem FrameId.slot_inj {id id' : FrameId} {slot : Fin 8} (h : id.slot = .ok slot)
    (h' : id'.slot = .ok slot) : id.port = id'.port ∧ id.isFollower = id'.isFollower := by
  obtain ⟨hp, hs⟩ := slot_ok h
  obtain ⟨hp', hs'⟩ := slot_ok h'
  have hf := id.isFollower.toNat_le
  have hf' := id'.isFollower.toNat_le
  have hsame : id.isFollower.toNat = id'.isFollower.toNat := by omega
  refine ⟨by omega, Bool.eq_iff_iff.mpr ?_⟩
  rw [← Bool.toNat_eq_one, ← Bool.toNat_eq_one, hsame]

namespace Slots

theorem get_initial (slot : Fin 8) : Slots.initial.get slot = .initial := by
  change (Vector.replicate 8 SlotState.initial)[slot.val] = _
  rw [Vector.getElem_replicate]

theorem get_set_self (slots : Slots) (slot : Fin 8) (state : SlotState) :
    Vector.get (slots.set slot state slot.isLt) slot = state := by
  change (slots.set slot.val state slot.isLt)[slot.val] = state
  rw [Vector.getElem_set_self]

theorem get_set_other {own slot : Fin 8} (hne : own ≠ slot) (slots : Slots) (state : SlotState) :
    Vector.get (slots.set own state own.isLt) slot = slots.get slot := by
  change (slots.set own.val state own.isLt)[slot.val] = slots[slot.val]
  rw [Vector.getElem_set_ne _ _ fun he => hne (Fin.ext he)]

end Slots

theorem Slots.update_ok {slots after : Slots} {id : FrameId} {character : Int}
    {action : ActionState} (h : slots.update id character action = .ok after) :
    ∃ slot : Fin 8, id.slot = .ok slot ∧
      after = slots.set slot ((slots.get slot).next character action) slot.isLt := by
  unfold update at h
  cases hs : id.slot with
  | ok slot =>
    rw [hs] at h
    exact ⟨slot, rfl, (Except.ok.inj h).symm⟩
  | error cause =>
    rw [hs] at h
    cases h

theorem Slots.predict_ok {slots : Slots} {id : FrameId} {character : Int}
    (h : slots.predict id = .ok character) :
    ∃ slot : Fin 8, id.slot = .ok slot ∧ character = (slots.get slot).predict := by
  unfold predict find at h
  cases hs : id.slot with
  | ok slot =>
    rw [hs] at h
    exact ⟨slot, rfl, (Except.ok.inj h).symm⟩
  | error cause =>
    rw [hs] at h
    cases h

namespace Event

/-- What the event confirms for the leader or the follower of a port. -/
def confirmed? (port : Int) (isFollower : Bool) (event : Event) : Option Confirmed :=
  if event.kind = some .framePost ∧ (FrameId.ofPayload event.payload).port = port ∧
      (FrameId.ofPayload event.payload).isFollower = isFollower then
    some ⟨Post.characterOfPayload event.payload, Post.stateOfPayload event.payload⟩
  else none

/-- What the events confirm for the leader or the follower of a port, the newest one first. -/
def history (port : Int) (isFollower : Bool) (events : List Event) : List Confirmed :=
  (events.filterMap (confirmed? port isFollower)).reverse

theorem history_concat (port : Int) (isFollower : Bool) (events : List Event) (event : Event) :
    history port isFollower (events ++ [event]) =
      (event.confirmed? port isFollower).toList ++ history port isFollower events := by
  rw [history, List.filterMap_append, List.reverse_append, history]
  congr 1
  cases hc : event.confirmed? port isFollower with
  | none => rw [List.filterMap_cons_none hc]; rfl
  | some post => rw [List.filterMap_cons_some hc]; rfl

theorem confirmed?_of_kind {event : Event} (h : event.kind ≠ some .framePost) (port : Int)
    (isFollower : Bool) : event.confirmed? port isFollower = none :=
  if_neg fun hc => h hc.1

/-- Each slot has the history that the events give it. -/
def Tracked (events : List Event) (slots : Slots) : Prop :=
  ∀ (id : FrameId) (slot : Fin 8), id.slot = .ok slot →
    slots.get slot = .after (history id.port id.isFollower events)

theorem tracked_initial : Tracked [] .initial := by
  intro id slot _
  rw [Slots.get_initial]
  rfl

theorem Tracked.of_kind {events : List Event} {event : Event} {slots : Slots}
    (h : Tracked events slots) (hk : event.kind ≠ some .framePost) :
    Tracked (events ++ [event]) slots := by
  intro id slot hs
  rw [history_concat, confirmed?_of_kind hk]
  exact h id slot hs

/-- An event after a frame is added to the history of its own slot and of no other. -/
theorem Tracked.post {events : List Event} {event : Event} {slots after : Slots}
    (h : Tracked events slots) (hk : event.kind = some .framePost)
    (hu : slots.update (.ofPayload event.payload) (Post.characterOfPayload event.payload)
      (.ofRaw (Post.stateOfPayload event.payload) (Post.characterOfPayload event.payload)) =
        .ok after) :
    Tracked (events ++ [event]) after := by
  obtain ⟨own, hown, rfl⟩ := Slots.update_ok hu
  intro id slot hs
  rw [history_concat]
  by_cases hsame : own = slot
  · subst hsame
    obtain ⟨hp, hf⟩ := FrameId.slot_inj hown hs
    rw [confirmed?, if_pos ⟨hk, hp, hf⟩]
    rw [Slots.get_set_self, h id own hs]
    rfl
  · have hother : ¬((FrameId.ofPayload event.payload).port = id.port ∧
        (FrameId.ofPayload event.payload).isFollower = id.isFollower) := by
      intro h
      obtain ⟨hp, hf⟩ := h
      unfold FrameId.slot at hown hs
      simp only [hp, hf] at hown
      exact hsame (Except.ok.inj (hown.symm.trans hs))
    rw [confirmed?, if_neg fun hc => hother hc.2]
    rw [Slots.get_set_other hsame]
    exact h id slot hs

/-- Without skipping, an event keeps the slots in step with the history, and a known one makes a
call. -/
theorem Tracked.decodes {options : Options} {events : List Event} {event : Event}
    {slots after : Slots} {call : Option Call} (hskip : options.skipFrames = false)
    (h : Tracked events slots) (hd : event.Decodes options slots call after) :
    Tracked (events ++ [event]) after ∧ call.isSome = event.kind.isSome := by
  cases hd with
  | unknown kind | gameStart kind | gameEnd kind | framePre _ kind =>
    exact ⟨h.of_kind (by simp [kind]), by simp [kind]⟩
  | skipped skips => simp [hskip] at skips
  | framePost _ kind decoded => exact ⟨h.post kind (Post.ofPayload_ok decoded), by simp [kind]⟩

/-- After any events the slots are in step with the history, and there is a call for each known
event. -/
theorem DecodesAll.tracked {options : Options} {events : List Event} {slots : Slots}
    {calls : List Call} (hskip : options.skipFrames = false)
    (h : DecodesAll options .initial events calls slots) :
    Tracked events slots ∧ calls.length = events.countP fun event => event.kind.isSome := by
  induction events using List.reverseRecOn generalizing calls slots with
  | nil =>
    cases h
    exact ⟨tracked_initial, rfl⟩
  | append_singleton events event ih =>
    obtain ⟨early, mid, call, hearly, hd, rfl⟩ := decodesAll_concat_iff.mp h
    obtain ⟨htracked, hlength⟩ := ih hearly
    obtain ⟨htracked', hcall⟩ := htracked.decodes hskip hd
    refine ⟨htracked', ?_⟩
    rw [List.length_append, hlength, List.countP_append, List.countP_singleton, ← hcall]
    cases call <;> rfl

/-- An event before a frame makes its call behind those of the known events before it, with the
action state that the history of its slot tells. -/
theorem DecodesAll.framePre {options : Options} {before later : List Event} {event : Event}
    {slots : Slots} {calls : List Call} (hskip : options.skipFrames = false)
    (h : DecodesAll options .initial (before ++ event :: later) calls slots)
    (hk : event.kind = some .framePre) :
    ∃ pre : FrameEvent Pre,
      calls[before.countP fun event => event.kind.isSome]? = some (.framePre pre) ∧
      pre.id = .ofPayload event.payload ∧
      pre.event.state = .ofRaw (Pre.stateOfPayload event.payload)
        (Confirmed.predicted (history pre.id.port pre.id.isFollower before)) := by
  obtain ⟨early, mid, rest, hearly, hrest, rfl⟩ := decodesAll_append_iff.mp h
  obtain ⟨htracked, hlength⟩ := hearly.tracked hskip
  cases hrest with
  | cons first _ =>
    cases first with
    | unknown kind | gameStart kind | gameEnd kind | framePost _ kind => simp [hk] at kind
    | skipped skips => simp [hskip] at skips
    | @framePre pre _ _ decoded =>
      obtain ⟨character, hpredict, hid, hstate⟩ := Pre.ofPayload_ok decoded
      obtain ⟨slot, hslot, rfl⟩ := Slots.predict_ok hpredict
      refine ⟨pre, ?_, hid, ?_⟩
      · rw [← hlength, List.getElem?_append_right (Nat.le_refl _), Nat.sub_self]
        rfl
      · rw [hstate, htracked _ slot hslot, SlotState.predict_after, hid]

end Event

namespace Run

open Confirmed

/-- Prediction over whole streams. When a raw stream is read without skipping, every event before a
frame is delivered with its own action state number and, from 341 on, with the character that the
earlier events after frames of the same port and the same one of leader and follower determine. -/
theorem readRaw_predicts {sink : Sink} {options : Options} {rawLength : Int} {s t : Session}
    {n : Nat} (hskip : options.skipFrames = false)
    (h : (readRaw sink options rawLength).run s = (.ok n, t)) :
    (∃ entries events calls slots,
      RawBehind options rawLength s t entries events calls slots) ∧
    ∀ entries events calls slots, RawBehind options rawLength s t entries events calls slots →
      ∀ before event later, events = before ++ event :: later → event.kind = some .framePre →
        ∃ pre : FrameEvent Pre,
          calls[before.countP fun event => event.kind.isSome]? = some (.framePre pre) ∧
          pre.id = .ofPayload event.payload ∧
          pre.event.state =
            if Pre.stateOfPayload event.payload < 341 then
              { value := Pre.stateOfPayload event.payload, character := none }
            else
              { value := Pre.stateOfPayload event.payload
                character :=
                  some (predicted (Event.history pre.id.port pre.id.isFollower before)) } := by
  obtain ⟨entries, events, calls, slots, hb, -⟩ := readRaw_ok h
  refine ⟨⟨entries, events, calls, slots, hb⟩, ?_⟩
  rintro entries events calls slots hb before event later rfl hk
  obtain ⟨pre, hcall, hid, hstate⟩ := hb.passed.decoded.framePre hskip hk
  refine ⟨pre, hcall, hid, hstate.trans ?_⟩
  unfold ActionState.ofRaw
  by_cases hv : Pre.stateOfPayload event.payload < 341
  · rw [if_pos hv, if_pos (by omega)]
  · rw [if_neg hv, if_neg (by omega)]

/-- The event after a frame in which the leader of the first port, as Zelda, turns into Sheik on
the ground. -/
def turning : Event where
  code := 0x38
  payload := [0, 0, 0, 0, 0, 0, 19, 0x01, 0x61] ++ List.replicate 8 0 ++ [0x3F, 0x80, 0, 0] ++
    List.replicate 12 0

/-- The event before a frame of the same fighter, in an action state of one character only. -/
def turned : Event where
  code := 0x37
  payload := [0, 0, 0, 0, 0, 0, 0, 0, 0, 0, 0x01, 0x90] ++ List.replicate 8 0 ++
    [0x3F, 0x80, 0, 0] ++ List.replicate 34 0

/-- A raw stream in which Zelda turns into Sheik. -/
def sheikStream : Bytes :=
  SizeRecord.encode [(0x37, 58), (0x38, 33), (0x39, 1)] ++
    (List.replicate 44 turning ++ [turned, ⟨0x39, [2]⟩]).flatMap Event.bytes

theorem readRaw_predicts_sheikStream :
    ∃ t n entries events calls slots pre,
      (readRaw .quiet {} 0).run { source := .ofBytes sheikStream } = (.ok n, t) ∧
      RawBehind {} 0 { source := .ofBytes sheikStream } t entries events calls slots ∧
      calls[44]? = some (.framePre pre) ∧
      pre.event.state = { value := 400, character := some 7 } := by
  let entries : List (UInt8 × UInt16) := [(0x37, 58), (0x38, 33), (0x39, 1)]
  let events : List Event := List.replicate 44 turning ++ [turned, ⟨0x39, [2]⟩]
  obtain ⟨calls, slots, hd⟩ := Event.exists_of_isOk
    (show (Event.decodeAll {} .initial events).isOk = true by decide +kernel)
  have hp : Passed {} 0 (.ofEntries entries) events calls slots :=
    ⟨by decide +kernel, hd, by decide +kernel, fun h0 => absurd rfl h0⟩
  have hg : ¬(Progress.after (.ofEntries entries) events).goesOn 0 = true := by decide +kernel
  have hl : (Source.ofBytes sheikStream).left =
      SizeRecord.encode entries ++ events.flatMap Event.bytes ++ [] := (List.append_nil _).symm
  have htaken := RawTaken.of_left (by decide) hp hl
  obtain ⟨t, hr, hsource, hcalls⟩ := run_readRaw_of_length (s := { source := .ofBytes sheikStream })
    (Source.inMemory_ofBytes _) htaken hg fun h0 => absurd rfl h0
  have hb : RawBehind {} 0 { source := .ofBytes sheikStream } t entries events calls slots :=
    ⟨hsource ▸ htaken, hcalls⟩
  obtain ⟨pre, hcall, hid, hstate⟩ := (readRaw_predicts rfl hr).2 _ _ _ _ hb
    (List.replicate 44 turning) turned [⟨0x39, [2]⟩] rfl rfl
  have hbefore : (List.replicate 44 turning).countP (fun event => event.kind.isSome) = 44 := by
    decide +kernel
  have hpredicted : predicted (Event.history (FrameId.ofPayload turned.payload).port
      (FrameId.ofPayload turned.payload).isFollower (List.replicate 44 turning)) = 7 := by
    decide +kernel
  rw [hbefore] at hcall
  rw [hid, hpredicted] at hstate
  exact ⟨t, _, _, _, _, _, pre, hr, hb, hcall, hstate⟩

end Run

end Replay
