import Replay.Proofs.Acceptance

/-!
Events of unknown kinds. They tell the sink nothing and leave the slots as they are, so a raw stream
may hold any of them that its size record lists, wherever the game has not ended yet.
-/

namespace Replay

namespace Event

variable {options : Options} {slots after : Slots} {event : Event} {calls : List Call}
  {inserted events all : List Event}

/-- Its code is none of those that are decoded. -/
def IsUnknown (event : Event) : Prop :=
  event.code < 0x36 ∨ 0x39 < event.code

instance (event : Event) : Decidable event.IsUnknown :=
  inferInstanceAs (Decidable (_ ∨ _))

theorem IsUnknown.kind_eq (h : event.IsUnknown) : event.kind = none := by
  have hne (code : UInt8) (hcode : ¬(code < 0x36 ∨ 0x39 < code)) : event.code ≠ code :=
    fun he => hcode (he ▸ h)
  rw [kind, if_neg (hne 0x36 (by decide)), if_neg (hne 0x37 (by decide)),
    if_neg (hne 0x38 (by decide)), if_neg (hne 0x39 (by decide))]

theorem IsUnknown.decodes (h : event.IsUnknown) (options : Options) (slots : Slots) :
    event.Decodes options slots none slots :=
  .unknown h.kind_eq

/-- The third list has the events of the second one in their order and, between them, those of the
first one, of which none stands behind the end of the game. -/
inductive Inserts : List Event → List Event → List Event → Prop where
  | nil : Inserts [] [] []
  | keep {inserted events all : List Event} (event : Event) (rest : Inserts inserted events all) :
    Inserts inserted (events ++ [event]) (all ++ [event])
  | insert {inserted events all : List Event} (event : Event) (unended : ¬EndsGame events)
    (rest : Inserts inserted events all) : Inserts (inserted ++ [event]) events (all ++ [event])

theorem Inserts.mem (h : Inserts inserted events all) (hm : event ∈ all) :
    event ∈ events ∨ event ∈ inserted := by
  induction h with
  | nil => exact .inl hm
  | keep last _ ih =>
    rcases List.mem_append.mp hm with hm | hm
    · exact (ih hm).imp_left (List.mem_append_left _)
    · exact .inl (List.mem_append_right _ hm)
  | insert last _ _ ih =>
    rcases List.mem_append.mp hm with hm | hm
    · exact (ih hm).imp_right (List.mem_append_left _)
    · exact .inr (List.mem_append_right _ hm)

theorem Inserts.length_bytes (h : Inserts inserted events all) :
    (all.flatMap bytes).length = (events.flatMap bytes).length +
      (inserted.flatMap bytes).length := by
  induction h with
  | nil => rfl
  | keep last _ ih =>
    simp only [List.flatMap_append, List.length_append, ih]
    omega
  | insert last _ _ ih =>
    simp only [List.flatMap_append, List.length_append, ih]
    omega

/-- What the events tell they tell with unknown events between them too. -/
theorem Inserts.decodesAll (h : Inserts inserted events all)
    (unknown : ∀ event ∈ inserted, event.IsUnknown)
    (hd : DecodesAll options slots events calls after) :
    DecodesAll options slots all calls after := by
  induction h generalizing calls after with
  | nil => exact hd
  | keep last _ ih =>
    obtain ⟨early, mid, call, hearly, hlast, rfl⟩ := decodesAll_concat_iff.mp hd
    exact decodesAll_concat_iff.mpr ⟨early, mid, call, ih unknown hearly, hlast, rfl⟩
  | insert last _ _ ih =>
    have hlast := unknown last (List.mem_append_right _ (List.mem_singleton.mpr rfl))
    have hrest := ih (fun event hm => unknown event (List.mem_append_left _ hm)) hd
    exact decodesAll_concat_iff.mpr ⟨calls, after, none, hrest, hlast.decodes _ _,
      (List.append_nil calls).symm⟩

theorem Inserts.endsGame (h : Inserts inserted events all) (ends : EndsGame events) :
    EndsGame all := by
  cases h with
  | nil => exact ends
  | keep last _ => exact endsGame_concat.mpr (endsGame_concat.mp ends)
  | insert last unended _ => exact absurd ends unended

/-- Where no event but the last one may end the game and the last one does not, none does. -/
theorem unended_of_not_endsGame (h : ∀ event ∈ events.dropLast, event.kind ≠ some .gameEnd)
    (unended : ¬EndsGame events) (hm : event ∈ events) : event.kind ≠ some .gameEnd := by
  rcases List.eq_nil_or_concat events with rfl | ⟨front, last, rfl⟩
  · exact absurd hm List.not_mem_nil
  · rw [List.concat_eq_append] at h unended hm
    rw [List.dropLast_concat] at h
    rcases List.mem_append.mp hm with hm | hm
    · exact h event hm
    · rw [List.mem_singleton.mp hm]
      exact fun hk => unended (endsGame_concat.mpr hk)

/-- Still no event but the last one ends the game. -/
theorem Inserts.unended (h : Inserts inserted events all)
    (unknown : ∀ event ∈ inserted, event.IsUnknown)
    (hu : ∀ event ∈ events.dropLast, event.kind ≠ some .gameEnd) :
    ∀ event ∈ all.dropLast, event.kind ≠ some .gameEnd := by
  have hunknown : ∀ event ∈ inserted, event.kind ≠ some .gameEnd := by
    intro event hm hk
    rw [(unknown event hm).kind_eq] at hk
    cases hk
  cases h with
  | nil => exact hu
  | keep last rest =>
    rw [List.dropLast_concat] at hu ⊢
    exact fun event hm => (rest.mem hm).elim (hu event) (hunknown event)
  | insert last unended rest =>
    rw [List.dropLast_concat]
    intro event hm
    rcases rest.mem hm with hm | hm
    · exact unended_of_not_endsGame hu unended hm
    · exact hunknown event (List.mem_append_left _ hm)

end Event

namespace Container

open Parts

/-- The second replay differs from the first one by unknown events that its size record lists, and
by what they add to its declared length. -/
structure Parts.Inserting (parts more : Parts) (inserted : List Event) : Prop where
  entries : more.entries = parts.entries
  metadata : more.metadata = parts.metadata
  unknown : ∀ event ∈ inserted, event.IsUnknown
  listed : ∀ event ∈ inserted,
    (SizeRecord.lastSize? parts.entries event.code).map UInt16.toNat = some event.payload.length
  events : Event.Inserts inserted parts.events more.events
  undeclared : parts.rawLength = 0 → more.rawLength = 0
  declared : parts.rawLength ≠ 0 →
    more.rawLength.toNat = parts.rawLength.toNat + (inserted.flatMap Event.bytes).length

variable {options : Options} {parts more : Parts} {inserted : List Event} {calls : List Call}
  {tree : List (String × Tree)}

theorem Parts.Inserting.length_raw (h : parts.Inserting more inserted) :
    more.raw.length = parts.raw.length + (inserted.flatMap Event.bytes).length := by
  rw [raw, raw, List.length_append, List.length_append, h.entries, h.events.length_bytes,
    Nat.add_assoc]

theorem Parts.Inserting.rawLength_eq_zero_iff (h : parts.Inserting more inserted) :
    more.rawLength = 0 ↔ parts.rawLength = 0 := by
  refine ⟨fun h0 => Decidable.byContradiction fun hne => ?_, h.undeclared⟩
  have hsum := h.declared hne
  have hpos : parts.rawLength.toNat ≠ 0 := fun hz => hne (UInt32.toNat_inj.mp hz)
  rw [h0] at hsum
  change 0 = _ at hsum
  omega

/-- The parts of a replay are as sound with unknown events among them, and tell the same. -/
theorem Parts.Sound.inserting (h : parts.Sound options calls tree)
    (hi : parts.Inserting more inserted) : more.Sound options calls tree where
  few := hi.entries ▸ h.few
  listed event hm := by
    rw [hi.entries]
    exact (hi.events.mem hm).elim (h.listed event) (hi.listed event)
  unended := hi.events.unended hi.unknown h.unended
  ended h0 := hi.events.endsGame (h.ended (hi.rawLength_eq_zero_iff.mp h0))
  length h0 := by
    have hne : parts.rawLength ≠ 0 := fun hz => h0 (hi.undeclared hz)
    rw [hi.length_raw, hi.declared hne, h.length hne]
  decoded := by
    obtain ⟨slots, hd⟩ := h.decoded
    exact ⟨slots, hi.events.decodesAll hi.unknown hd⟩
  metadata := hi.metadata ▸ h.metadata

/-- Unknown events do not show. Data that is decoded consists of the parts of a replay and what
follows them; with any unknown events put into the raw stream, as its size record lists them, it is
decoded with the same calls. -/
theorem decodeBytes_inserting (options : Options) (data : Bytes)
    (h : (decodeBytes .quiet options data).1 = .ok ()) :
    (∃ (parts : Parts) (calls : List Call) (tree : List (String × Tree)) (rest : Bytes),
      parts.Sound options calls tree ∧ data = parts.bytes ++ rest) ∧
    ∀ (parts : Parts) (calls : List Call) (tree : List (String × Tree)) (rest : Bytes),
      parts.Sound options calls tree → data = parts.bytes ++ rest →
      ∀ (more : Parts) (inserted : List Event), parts.Inserting more inserted →
        (decodeBytes .quiet options (more.bytes ++ rest)).1 = .ok () ∧
        (decodeBytes .quiet options (more.bytes ++ rest)).2.calls =
          (decodeBytes .quiet options data).2.calls := by
  constructor
  · obtain ⟨parts, calls, tree, hd⟩ := run_ok (t := (decodeBytes .quiet options data).2)
      (Prod.ext h rfl)
    exact ⟨parts, calls, tree, _, hd.sound, hd.left⟩
  · intro parts calls tree rest hsound hdata more inserted hi
    obtain ⟨t, ht, -, hd⟩ := decodeBytes_of_sound hsound hdata
    obtain ⟨u, hu, -, hd'⟩ :=
      decodeBytes_of_sound (hsound.inserting hi) (Eq.refl (more.bytes ++ rest))
    rw [ht, hu]
    exact ⟨rfl, Array.toList_inj.mp (hd'.calls.trans hd.calls.symm)⟩

/-- The size record of this replay lists two codes that are not decoded. -/
def listingUnknown : Parts where
  rawLength := 13
  entries := [(0x39, 1), (0x35, 0), (0x10, 2)]
  events := [⟨0x39, [2]⟩]
  metadata := [0x7D]

/-- The same replay with an event of each of these codes. -/
def holdingUnknown : Parts :=
  { listingUnknown with
    rawLength := 17
    events := [⟨0x10, [0x39, 0x7D]⟩, ⟨0x35, []⟩, ⟨0x39, [2]⟩] }

theorem decodeBytes_inserting_holdingUnknown :
    (decodeBytes .quiet {} (listingUnknown.bytes ++ [])).1 = .ok () ∧
      listingUnknown.Inserting holdingUnknown [⟨0x10, [0x39, 0x7D]⟩, ⟨0x35, []⟩] ∧
      (decodeBytes .quiet {} (holdingUnknown.bytes ++ [])).1 = .ok () ∧
      (decodeBytes .quiet {} (holdingUnknown.bytes ++ [])).2.calls =
        (decodeBytes .quiet {} (listingUnknown.bytes ++ [])).2.calls := by
  obtain ⟨calls, slots, hd⟩ := Event.exists_of_isOk
    (show (Event.decodeAll {} .initial listingUnknown.events).isOk = true by decide +kernel)
  have hsound : listingUnknown.Sound {} calls [] :=
    ⟨by decide, by decide, by decide, nofun, fun _ => by decide, ⟨slots, hd⟩,
      ⟨_, readMap_empty, rfl⟩⟩
  have hinserts : Event.Inserts [⟨0x10, [0x39, 0x7D]⟩, ⟨0x35, []⟩] listingUnknown.events
      holdingUnknown.events :=
    .keep _ (.insert ⟨0x35, []⟩ (by decide) (.insert ⟨0x10, [0x39, 0x7D]⟩ (by decide) .nil))
  have hinserting : listingUnknown.Inserting holdingUnknown
      [⟨0x10, [0x39, 0x7D]⟩, ⟨0x35, []⟩] :=
    ⟨rfl, rfl, by decide, by decide, hinserts, nofun, fun _ => by decide⟩
  obtain ⟨_, hok⟩ := Except.exists_of_isOk
    (show (decodeBytes .quiet {} (listingUnknown.bytes ++ [])).1.isOk = true by decide +kernel)
  obtain ⟨-, hmore⟩ := decodeBytes_inserting {} (listingUnknown.bytes ++ []) hok
  obtain ⟨hmore, hcalls⟩ := hmore _ calls [] [] hsound rfl _ _ hinserting
  exact ⟨hok, hinserting, hmore, hcalls⟩

end Container

end Replay
