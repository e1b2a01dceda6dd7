import Replay.Proofs.EventStream

/-!
One event as it is read. What taking and decoding an event does depends on nothing in a run but the
source and the slots, so it is a reader that gives the slots after the event too.
-/

namespace Replay

open Reader

theorem Reader.signedBlock_ok {size : Int} {s t : Source} {got : Bytes}
    (h : (signedBlock size).run s = (.ok got, t)) :
    size = (got.length : Int) ∧ s.left = got ++ t.left ∧ t = s.skip got.length := by
  cases size with
  | ofNat n =>
    obtain ⟨bytes, hl, ht, hr⟩ := Framed.block n s got t h
    obtain ⟨rfl, rfl⟩ := reads_block_iff.mp hr
    exact ⟨rfl, hl, ht⟩
  | negSucc n =>
    obtain ⟨reply, u, -, hu⟩ := Decoder.run_bind_eq_ok h
    cases reply <;> cases hu

theorem Reader.names_signedBlock (size : Int) : (signedBlock size).Names := by
  cases size with
  | ofNat n => exact Names.block n
  | negSucc n =>
    intro s hs e t h
    have hr : askAll.run s =
        (.ok (s.read (s.left.length + 1)).1, (s.read (s.left.length + 1)).2) := rfl
    unfold signedBlock at h
    rw [Decoder.run_bind, hr, hs.read] at h
    cases h
    exact Failure.named_ofCause ⟨nofun, nofun⟩

namespace EventRecord

/-- What the payload of an event of any kind tells the sink, and the slots after it. -/
def payloadReader (options : Options) (slots : Slots) (payload : Bytes) :
    Option EventKind → Reader (Option Call × Slots)
  | none => pure (none, slots)
  | some kind => .ofResult (kind.decode options slots payload)

/-- Takes and decodes one event that finds the given slots. -/
def reader (options : Options) (table : SizeTable) (slots : Slots) :
    Reader (EventRecord × Slots) := do
  let code ← Layout.u8.read
  match table.lookup code with
  | none => .reject (.unlistedEvent code)
  | some size => do
    let payload ← Reader.signedBlock size
    let kind := EventKind.ofCode? code
    let (call, after) ← payloadReader options slots payload kind
    pure ({ length := 1 + size.toNat, kind, call }, after)

/-- What it means that one event and nothing else was taken. -/
structure Takes (options : Options) (slots after : Slots) (s t : Source) (event : Event)
    (record : EventRecord) : Prop where
  left : s.left = event.bytes ++ t.left
  source : t = s.skip event.bytes.length
  decoded : event.Decodes options slots record.call after
  length : record.length = event.bytes.length
  kind : record.kind = event.kind

variable {options : Options} {table : SizeTable} {slots after : Slots}

theorem run_payloadReader (options : Options) (slots : Slots) (event : Event) (s : Source) :
    (payloadReader options slots event.payload event.kind).run s =
      (event.decode options slots, s) := by
  unfold Event.decode
  cases event.kind with
  | none => rfl
  | some kind =>
    change (Decoder.ofResult (kind.decode options slots event.payload) : Reader _).run s =
      (kind.decode options slots event.payload, s)
    cases kind.decode options slots event.payload <;> rfl

/-- Neither options nor slots matter up to the decoding of an event: it is not read, or it is read
in full and then does what its decoding does. -/
theorem reader_run (table : SizeTable) (s : Source) :
    (∃ f t, ∀ options slots, (reader options table slots).run s = (.error f, t)) ∨
      ∃ (event : Event) (t : Source), event.Fits table ∧ s.left = event.bytes ++ t.left ∧
        t = s.skip event.bytes.length ∧
        ∀ options slots, (reader options table slots).run s =
          ((event.decode options slots).map fun (call, after) =>
            ({ length := event.bytes.length, kind := event.kind, call }, after), t) := by
  rcases hc : Layout.u8.read.run s with ⟨e | code, s₁⟩
  · refine .inl ⟨e, s₁, fun options slots => ?_⟩
    rw [reader, Decoder.run_bind, hc]
  obtain ⟨bytes, hcl, hct, hcb⟩ := (Composed.read Layout.u8).framed _ _ _ hc
  obtain ⟨b, rfl, rfl⟩ := Layout.reads_u8_iff.mp hcb
  simp only [reader, Decoder.run_bind_of_ok hc]
  cases hsize : table.lookup b.toNat with
  | none => exact .inl ⟨_, s₁, fun _ _ => rfl⟩
  | some size =>
    rcases hp : (signedBlock size).run s₁ with ⟨e | payload, s₂⟩
    · refine .inl ⟨e, s₂, fun options slots => ?_⟩
      dsimp only
      rw [Decoder.run_bind, hp]
    · obtain ⟨rfl, hpl, hpt⟩ := signedBlock_ok hp
      let event : Event := ⟨b, payload⟩
      have hlength : 1 + payload.length = event.bytes.length := (Event.length_bytes event).symm
      refine .inr ⟨event, s₂, hsize, ?_, ?_, fun options slots => ?_⟩
      · rw [hcl, hpl]
        rfl
      · rw [hpt, hct, Source.skip_skip, ← hlength]
        rfl
      · have hpayload := run_payloadReader options slots event s₂
        rw [← Event.ofCode?_code] at hpayload
        dsimp only [event] at hpayload ⊢
        rw [Decoder.run_bind_of_ok hp, Decoder.run_bind, hpayload, ← Event.ofCode?_code, ← hlength]
        cases event.decode options slots <;> rfl

theorem reader_ok {s t : Source} {record : EventRecord}
    (h : (reader options table slots).run s = (.ok (record, after), t)) :
    ∃ event : Event, event.Fits table ∧ Takes options slots after s t event record := by
  rcases reader_run table s with ⟨_, _, hrun⟩ | ⟨event, u, hfits, hleft, hsource, hrun⟩
  · rw [hrun] at h
    cases h
  · rw [hrun] at h
    cases hd : event.decode options slots with
    | error f =>
      rw [hd] at h
      cases h
    | ok result =>
      rw [hd] at h
      cases h
      exact ⟨event, hfits, hleft, hsource, Event.decodes_of_ok hd, rfl, rfl⟩

/-- An event that fits the table and is sound is read from its bytes. -/
theorem reads_reader {event : Event} {call : Option Call} (fits : event.Fits table)
    (hd : event.Decodes options slots call after) :
    (reader options table slots).Reads event.bytes
      ({ length := event.bytes.length, kind := event.kind, call }, after) := by
  have hcode : Layout.u8.read.Reads [event.code] event.code.toNat :=
    Layout.reads_u8_iff.mpr ⟨event.code, rfl, rfl⟩
  apply hcode.bind
  simp only [show table.lookup event.code.toNat = some (event.payload.length : Int) from fits,
    signedBlock_ofNat]
  intro s rest hs hl
  rw [Decoder.run_bind_of_ok (Reads.block event.payload s rest hs hl)]
  rw [Event.ofCode?_code, Decoder.run_bind, run_payloadReader, hd.decode_eq, Event.length_bytes]
  rfl

/-- An event in memory is refused for a cause that the reader names. -/
theorem names_reader (options : Options) (table : SizeTable) (slots : Slots) :
    (reader options table slots).Names := by
  refine (Names.read _).bind fun code => ?_
  split
  · exact Names.reject ⟨nofun, nofun⟩
  · refine (names_signedBlock _).bind fun payload => Names.bind ?_ fun _ => Names.pure _
    cases EventKind.ofCode? code with
    | none => exact Names.pure _
    | some kind =>
      intro s _ e t h
      rw [payloadReader] at h
      cases hd : kind.decode options slots payload with
      | ok result =>
        rw [hd] at h
        cases h
      | error f =>
        rw [hd] at h
        cases h
        exact EventKind.decode_error hd

end EventRecord

end Replay
