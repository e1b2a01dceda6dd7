import Replay.Proofs.ErrorPlace

/-!
Raw streams of known and of unknown length. A run stops at the declared length or at the end of the
game, so the two ways to declare the length of a game agree on streams that end with it, and a
length that is too large is noticed only behind the whole stream.
-/

namespace Replay

/-- The same events are behind a loop under any declared length that they do not go past. -/
theorem Passed.redeclare {options : Options} {rawLength rawLength' : Int} {record : SizeRecord}
    {events : List Event} {calls : List Call} {slots : Slots}
    (h : Passed options rawLength record events calls slots)
    (hle : rawLength' ≠ 0 → (Event.lengthAfter record events : Int) ≤ rawLength') :
    Passed options rawLength' record events calls slots where
  fits := h.fits
  decoded := h.decoded
  unended := h.unended
  short h0 j hj := by
    have hlt := Event.lengthAfter_take_lt record hj
    have := hle h0
    omega

namespace Container

open Reader

/-- The container with the given bytes behind its declared length. -/
def declaring (rawLength : UInt32) (tail : Bytes) : Bytes :=
  rawPrologue ++ Bytes.bigEndian 4 rawLength.toNat ++ tail

theorem length_declaring (rawLength : UInt32) (tail : Bytes) :
    (declaring rawLength tail).length = 15 + tail.length := by
  rw [declaring, List.length_append, List.length_append, Bytes.length_bigEndian]
  rfl

theorem declaring_append (rawLength : UInt32) (tail rest : Bytes) :
    declaring rawLength (tail ++ rest) = declaring rawLength tail ++ rest :=
  (List.append_assoc ..).symm

/-- The declared length and what follows it can be told from the data. -/
theorem declaring_inj {rawLength rawLength' : UInt32} {tail tail' : Bytes} :
    declaring rawLength tail = declaring rawLength' tail' ↔
      rawLength = rawLength' ∧ tail = tail' := by
  constructor
  · intro h
    have hwidth : (Bytes.bigEndian 4 rawLength.toNat).length =
        (Bytes.bigEndian 4 rawLength'.toNat).length := by
      rw [Bytes.length_bigEndian, Bytes.length_bigEndian]
    obtain ⟨hhead, htail⟩ := List.append_inj h (by rw [List.length_append, hwidth,
      List.length_append])
    have hdigits := congrArg Bytes.unsigned (List.append_cancel_left hhead)
    rw [Bytes.unsigned_bigEndian rawLength.toNat_lt,
      Bytes.unsigned_bigEndian rawLength'.toNat_lt] at hdigits
    exact ⟨UInt32.toNat_inj.mp hdigits, htail⟩
  · rintro ⟨rfl, rfl⟩
    rfl

theorem run_readHead_declaring (rawLength : UInt32) (tail : Bytes) :
    readHead.run (.ofBytes (declaring rawLength tail)) =
      (.ok rawLength.toNat, (Source.ofBytes (declaring rawLength tail)).skip 15) :=
  reads_readHead_iff.mpr ⟨rawLength, rfl, rfl⟩ _ tail (Source.inMemory_ofBytes _) rfl

theorem offset_skip_ofBytes (data : Bytes) (n : Nat) :
    ((Source.ofBytes data).skip n).offset = some (n : Int) := by
  change some ((0 + n : Nat) : Int) = _
  rw [Nat.zero_add]

theorem left_behind_head (rawLength : UInt32) (tail : Bytes) :
    ((Source.ofBytes (declaring rawLength tail)).skip 15).left = tail := by
  have hl : (Source.ofBytes (declaring rawLength tail)).left =
      rawPrologue ++ Bytes.bigEndian 4 rawLength.toNat ++ tail := rfl
  exact Source.left_skip_of_append hl

namespace Parts

/-- What stands behind the declared length. -/
def tail (parts : Parts) : Bytes :=
  parts.raw ++ (metadataPrologue ++ parts.metadata) ++ epilogue

theorem bytes_eq_declaring (parts : Parts) :
    parts.bytes = declaring parts.rawLength parts.tail := by
  simp only [bytes, declaring, tail, List.append_assoc]

/-- The same parts with another declared length. -/
def redeclare (parts : Parts) (rawLength : UInt32) : Parts :=
  { parts with rawLength }

variable {options : Options} {parts : Parts} {calls : List Call} {tree : List (String × Tree)}

/-- A stream that ends with the game is as good with an unknown length as with its own. -/
theorem Sound.redeclare (h : parts.Sound options calls tree) (ends : Event.EndsGame parts.events)
    {rawLength : UInt32} (hl : rawLength ≠ 0 → parts.raw.length = rawLength.toNat) :
    (parts.redeclare rawLength).Sound options calls tree where
  few := h.few
  listed := h.listed
  unended := h.unended
  ended _ := ends
  length := hl
  decoded := h.decoded
  metadata := h.metadata

/-- The raw stream of sound parts is taken under a declared length that it does not go past. -/
theorem Sound.taken (h : parts.Sound options calls tree) {rawLength : UInt32}
    (hle : parts.raw.length ≤ rawLength.toNat) (rest : Bytes) :
    ∃ slots, RawTaken options rawLength.toNat
      ((Source.ofBytes (declaring rawLength (parts.tail ++ rest))).skip 15)
      ((Source.ofBytes (declaring rawLength (parts.tail ++ rest))).skip (15 + parts.raw.length))
      parts.entries parts.events calls slots := by
  obtain ⟨slots, hp⟩ := h.passed
  rw [length_raw] at hle ⊢
  have hp' : Passed options rawLength.toNat (.ofEntries parts.entries) parts.events calls slots :=
    hp.redeclare fun _ => Int.ofNat_le.mpr hle
  have hl : ((Source.ofBytes (declaring rawLength (parts.tail ++ rest))).skip 15).left =
      parts.raw ++ (metadataPrologue ++ parts.metadata ++ epilogue ++ rest) := by
    rw [left_behind_head]
    simp only [tail, List.append_assoc]
  refine ⟨slots, ?_⟩
  rw [← Source.skip_skip]
  exact RawTaken.of_left h.few hp' hl

end Parts

variable {options : Options} {parts : Parts} {calls : List Call} {tree : List (String × Tree)}

/-- A run that ends well on a declared length and what follows it has decoded parts with that
length. -/
theorem Decoded.of_declaring {rawLength : UInt32} {tail : Bytes} {t : Session}
    (h : Decoded options { source := .ofBytes (declaring rawLength tail) } t parts calls tree) :
    parts.rawLength = rawLength ∧ tail = parts.tail ++ t.source.left := by
  have hleft : declaring rawLength tail = parts.bytes ++ t.source.left := h.left
  rw [parts.bytes_eq_declaring, ← declaring_append] at hleft
  obtain ⟨hlength, htail⟩ := declaring_inj.mp hleft
  exact ⟨hlength.symm, htail⟩

/-- Sound parts that end with the game are decoded under an unknown length and under their own. -/
theorem decodeBytes_redeclare (h : parts.Sound options calls tree)
    (ends : Event.EndsGame parts.events) {rawLength : UInt32}
    (hl : rawLength ≠ 0 → parts.raw.length = rawLength.toNat) (rest : Bytes) :
    ∃ t, decodeBytes .quiet options (declaring rawLength (parts.tail ++ rest)) = (.ok (), t) ∧
      t.calls.toList = calls ++ [.metadata tree] ∧ t.source.taken = 15 + parts.tail.length := by
  have hbytes : declaring rawLength (parts.tail ++ rest) =
      (parts.redeclare rawLength).bytes ++ rest := by
    rw [Parts.bytes_eq_declaring, ← declaring_append]
    rfl
  obtain ⟨t, hrun, -, hd⟩ := decodeBytes_of_sound (h.redeclare ends hl) hbytes
  refine ⟨t, hrun, hd.calls, ?_⟩
  rw [hd.source, Parts.bytes_eq_declaring, length_declaring]
  exact Nat.zero_add _

/-- Under a larger length a run tells all that the parts tell but the metadata, and then misses the
rest of the length. -/
theorem decodeBytes_declaring_more (h : parts.Sound options calls tree)
    (ends : Event.EndsGame parts.events) {rawLength : UInt32}
    (hlt : parts.raw.length < rawLength.toNat) (rest : Bytes) :
    ∃ t, decodeBytes .quiet options (declaring rawLength (parts.tail ++ rest)) =
        (.error (.decode {
          cause := .rawLength rawLength.toNat parts.raw.length
          offset := some (15 + parts.raw.length : Nat) }), t) ∧
      t.calls.toList = calls := by
  obtain ⟨slots, htaken⟩ := h.taken (Nat.le_of_lt hlt) rest
  obtain ⟨u, hu, hc, hrun⟩ := run_of_head (s := { source := .ofBytes _ }) .quiet options
    (run_readHead_declaring rawLength (parts.tail ++ rest))
  have hmemory : u.source.InMemory := hu ▸ (Source.inMemory_ofBytes _).skip 15
  have hstops : ¬(Progress.after (.ofEntries parts.entries) parts.events).goesOn rawLength.toNat =
      true := fun hg => (Progress.goesOn_after_iff.mp hg).2 ends
  rw [← hu] at htaken
  rw [Parts.length_raw] at hlt htaken ⊢
  obtain ⟨t, hraw, -, hcalls⟩ := Run.run_readRaw_of_length_error hmemory htaken hstops (by omega)
    (by omega)
  refine ⟨t, ?_, by rw [hcalls, hc]; rfl⟩
  rw [decodeBytes_eq_run, hrun, Decoder.run_bind, hraw, offset_skip_ofBytes]
  rfl

/-- Declared and unknown length. What a run decodes under an unknown length it decodes alike under
the length that the raw stream turns out to have; under any larger one it makes the same calls up
to the metadata, and then fails behind the raw stream. What it decodes under some length it decodes
alike under an unknown one if the raw stream ends with the game. -/
theorem decodeBytes_declaring (options : Options) (tail : Bytes) :
    (∀ rawLength t, decodeBytes .quiet options (declaring rawLength tail) = (.ok (), t) →
      ∃ parts calls tree,
        Decoded options { source := .ofBytes (declaring rawLength tail) } t parts calls tree) ∧
    (∀ t parts calls tree,
      decodeBytes .quiet options (declaring 0 tail) = (.ok (), t) →
      Decoded options { source := .ofBytes (declaring 0 tail) } t parts calls tree →
      ∀ b : UInt32, parts.raw.length = b.toNat →
        (∃ u, decodeBytes .quiet options (declaring b tail) = (.ok (), u) ∧ u.calls = t.calls ∧
          u.source.taken = t.source.taken) ∧
        ∀ rawLength : UInt32, b < rawLength →
          ∃ u, decodeBytes .quiet options (declaring rawLength tail) = (.error (.decode {
              cause := .rawLength rawLength.toNat b.toNat
              offset := some (15 + b.toNat : Nat) }), u) ∧
            t.calls = u.calls.push (.metadata tree)) ∧
    ∀ rawLength t parts calls tree, rawLength ≠ 0 →
      decodeBytes .quiet options (declaring rawLength tail) = (.ok (), t) →
      Decoded options { source := .ofBytes (declaring rawLength tail) } t parts calls tree →
      Event.EndsGame parts.events →
      ∃ u, decodeBytes .quiet options (declaring 0 tail) = (.ok (), u) ∧ u.calls = t.calls ∧
        u.source.taken = t.source.taken := by
  refine ⟨?_, ?_, ?_⟩
  · intro rawLength t h
    rw [decodeBytes_eq_run] at h
    exact run_ok h
  · intro t parts calls tree hrun hd b hb
    obtain ⟨hzero, htail⟩ := hd.of_declaring
    have hends := hd.sound.ended hzero
    obtain ⟨t', hrun', hcalls, htaken⟩ :=
      decodeBytes_redeclare hd.sound hends (absurd rfl) t.source.left
    rw [← htail, hrun] at hrun'
    cases hrun'
    constructor
    · obtain ⟨u, hu, hcalls', htaken'⟩ :=
        decodeBytes_redeclare hd.sound hends (fun _ => hb) t.source.left
      rw [← htail] at hu
      exact ⟨u, hu, Array.toList_inj.mp (hcalls'.trans hcalls.symm), htaken'.trans htaken.symm⟩
    · intro rawLength hlt
      have hmore : parts.raw.length < rawLength.toNat := hb ▸ UInt32.lt_iff_toNat_lt.mp hlt
      obtain ⟨u, hu, hcalls'⟩ := decodeBytes_declaring_more hd.sound hends hmore t.source.left
      rw [← htail, hb] at hu
      refine ⟨u, hu, Array.toList_inj.mp ?_⟩
      rw [Array.toList_push, hcalls, hcalls']
  · intro rawLength t parts calls tree h0 hrun hd hends
    obtain ⟨hlength, htail⟩ := hd.of_declaring
    have hraw : parts.raw.length = rawLength.toNat := by
      rw [hd.sound.length (hlength ▸ h0), hlength]
    obtain ⟨t', hrun', hcalls, htaken⟩ :=
      decodeBytes_redeclare hd.sound hends (fun _ => hraw) t.source.left
    rw [← htail, hrun] at hrun'
    cases hrun'
    obtain ⟨u, hu, hcalls', htaken'⟩ :=
      decodeBytes_redeclare hd.sound hends (absurd rfl) t.source.left
    rw [← htail] at hu
    exact ⟨u, hu, Array.toList_inj.mp (hcalls'.trans hcalls.symm), htaken'.trans htaken.symm⟩

/-- The raw stream of the replay that ends at once has seven bytes. -/
theorem decodeBytes_declaring_endedAtOnce :
    ∃ t u v w, decodeBytes .quiet {} (declaring 0 endedAtOnce.tail) = (.ok (), t) ∧
      (decodeBytes .quiet {} (declaring 7 endedAtOnce.tail) = (.ok (), u) ∧ u.calls = t.calls) ∧
      (decodeBytes .quiet {} (declaring 9 endedAtOnce.tail) =
        (.error (.decode { cause := .rawLength 9 7, offset := some 22 }), v) ∧
        t.calls = v.calls.push (.metadata [])) ∧
      decodeBytes .quiet {} (declaring 0 endedAtOnce.tail) = (.ok (), w) ∧ w.calls = u.calls := by
  obtain ⟨-, hunknown, hdeclared⟩ := decodeBytes_declaring {} endedAtOnce.tail
  have hdata : ∀ rawLength, declaring rawLength endedAtOnce.tail =
      (endedAtOnce.redeclare rawLength).bytes ++ [] := fun rawLength => by
    rw [List.append_nil, Parts.bytes_eq_declaring]
    rfl
  have hsound' : ∀ rawLength : UInt32, (rawLength ≠ 0 → 7 = rawLength.toNat) →
      (endedAtOnce.redeclare rawLength).Sound {} [.gameEnd ⟨⟨2⟩, none⟩] [] :=
    fun _ => sound_endedAtOnce.redeclare (by decide)
  obtain ⟨t, ht, -, hd⟩ := decodeBytes_of_sound (hsound' 0 (absurd rfl)) (hdata 0)
  obtain ⟨⟨u, hu, hcalls, -⟩, hmore⟩ := hunknown t _ _ _ ht hd 7 rfl
  obtain ⟨v, hv, hcalls'⟩ := hmore 9 (by decide)
  obtain ⟨u', hu', -, hd'⟩ := decodeBytes_of_sound (hsound' 7 fun _ => rfl) (hdata 7)
  cases hu.symm.trans hu'
  obtain ⟨w, hw, hcalls'', -⟩ := hdeclared 7 u _ _ _ (by decide) hu hd' (by decide)
  exact ⟨t, u, v, w, ht, ⟨hu, hcalls⟩, ⟨hv, hcalls'⟩, hw, hcalls''⟩

end Container

end Replay
