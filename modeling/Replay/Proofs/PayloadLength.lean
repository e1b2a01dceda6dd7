import Replay.Proofs.Layers

/-!
Payloads of known events have blocks that newer producers append. Their length alone says which
blocks are there: not the version in them, nor anything else that they hold.
-/

namespace Replay

/-- The length of a payload governs what a decoder makes of it, as far as the payload is sound
otherwise. A payload of an accepted length is decoded to a record with so many blocks, any other is
refused as cut short. What a longer payload is decoded to, its front is too, but for the blocks that
the front does not have. -/
structure GovernedBy {α : Type} (lengths : List Nat) (layers : Layers α) (Sound : Bytes → Prop)
    (decode : Bytes → Except Failure α) : Prop where
  decoded : ∀ payload k, Sound payload → Allots lengths payload.length k →
    ∃ a, decode payload = .ok a ∧ layers.Has a k
  refused : ∀ payload, Sound payload → (∀ k, ¬Allots lengths payload.length k) →
    ∃ cause, decode payload = .error (.ofCause cause) ∧ cause.errorClass = .truncatedInput
  front : ∀ payload more k a, Allots lengths payload.length k →
    decode (payload ++ more) = .ok a → decode payload = .ok (layers.upTo k a)

namespace Reader

variable {α : Type} {reader : Reader α} {layers : Layers α} {lengths : List Nat}

theorem onBytes_of_ok {payload : Bytes} {a : α} {t : Source}
    (h : reader.run (.ofBytes payload) = (.ok a, t)) : reader.onBytes payload = .ok a :=
  congrArg Prod.fst h

/-- A payload of an accepted length that goes on. -/
theorem StagedAt.onBytes_front {payload more : Bytes} {k : Nat} {b : α}
    (h : reader.StagedAt layers lengths (.ofBytes payload))
    (hk : Allots lengths payload.length k) (hb : reader.onBytes (payload ++ more) = .ok b) :
    reader.onBytes payload = .ok (layers.upTo k b) := by
  obtain ⟨a, t, hr, -, hmore⟩ := h.takes k hk
  obtain ⟨u, hu⟩ := onBytes_ok hb
  rw [hmore more b u hu]
  exact onBytes_of_ok hr

theorem governedBy_of_stagedAt {Sound : Bytes → Prop}
    (h : ∀ payload, Sound payload → reader.StagedAt layers lengths (.ofBytes payload))
    (sound : ∀ payload more k a, Allots lengths payload.length k →
      reader.onBytes (payload ++ more) = .ok a → Sound payload) :
    GovernedBy lengths layers Sound reader.onBytes where
  decoded payload k hs hk := by
    obtain ⟨a, t, hr, hhas, -⟩ := (h payload hs).takes k hk
    exact ⟨a, onBytes_of_ok hr, hhas⟩
  refused payload hs hk := by
    obtain ⟨cause, t, hr, hc, -⟩ := (h payload hs).runsDry hk
    exact ⟨cause, congrArg Prod.fst hr, hc⟩
  front payload more k a hk ha := (h payload (sound payload more k a hk ha)).onBytes_front hk ha

end Reader

open Reader

namespace End

def layers : Layers End :=
  .extended (.extended .base)

theorem staged_reader : reader.Staged layers [1, 2, 6] :=
  .extended _ (by decide) (.extended _ (by decide) (.read _ (by decide)))

end End

namespace Start

def Additions.layers : Layers Additions :=
  .extended (.extended (.extended (.extended (.extended (.extended .base)))))

theorem Additions.staged_reader :
    Additions.reader.Staged layers [1, 2, 4, 168, 284, 285, 344] :=
  .extended _ (by decide) (.extended _ (by decide) (.extended _ (by decide) (.extended _ (by decide)
    (.extended _ (by decide) (.extended _ (by decide) (.read _ (by decide)))))))

/-- The blocks that are read behind the base. The first two hold something for each seat. -/
abbrev Blocks :=
  Extended (Vector ControllerFixes 4) (Extended (Vector String 4) Additions)

def Blocks.layers : Layers Blocks :=
  .extended (.extended Additions.layers)

def ofBlocks (base : Base) (blocks : Option Blocks) : Start :=
  ofParts base (blocks.map (·.head)) ((blocks.bind (·.more)).map (·.head))
    ((blocks.bind (·.more)).bind (·.more))

def Blocks.reader : Reader Blocks :=
  fixesLayout.extended (tagsLayout.extended Additions.reader)

theorem Blocks.staged_reader :
    Blocks.reader.Staged layers [32, 96, 97, 98, 100, 264, 380, 381, 440] :=
  .extended _ (by decide) (.extended _ (by decide) Additions.staged_reader)

/-- The blocks may as well be read as one chain. -/
theorem reader_eq :
    reader = Base.layout.read >>= fun base => ofBlocks base <$> Blocks.reader.ifAny := by
  have ite_bind : ∀ {c : Prop} [Decidable c] {α β : Type} (x y : Reader α) (f : α → Reader β),
      (if c then x else y) >>= f = if c then x >>= f else y >>= f := by
    intro c _ α β x y f
    split <;> rfl
  rw [reader]
  congr 1
  funext base
  rw [Blocks.reader, Layout.extended, map_eq_pure_bind]
  simp only [Layout.extended, ifAny_bind, ite_bind, bind_assoc, pure_bind]
  rfl

/-- What a seat gets from the first two blocks. -/
def seatBlocks (blocks : Option Blocks) (port : Fin 4) : Option (Extended ControllerFixes String) :=
  blocks.map fun blocks => ⟨blocks.head.get port, blocks.more.map (·.head.get port)⟩

def seatLayers : Layers (Option (Extended ControllerFixes String)) :=
  .optional (.extended .base)

def restLayers : Layers (Option Additions) :=
  .optional Additions.layers

/-- The first two blocks are with the players, the others with the record itself. -/
def layers : Layers Start where
  Has start k :=
    (∀ player : Player, some player ∈ start.players.toList →
      seatLayers.Has player.additions (min k 2)) ∧
    restLayers.Has start.additions (k - 2)
  upTo k start := { start with
    players := start.players.map fun player? => player?.map fun player =>
      { player with additions := seatLayers.upTo k player.additions }
    additions := restLayers.upTo (k - 2) start.additions }

theorem seatAdditions_eq (blocks : Option Blocks) :
    seatAdditions (blocks.map (·.head)) ((blocks.bind (·.more)).map (·.head)) =
      .ofFn (seatBlocks blocks) := by
  rcases blocks with _ | ⟨fixes, _ | ⟨tags, additions⟩⟩ <;> rfl

theorem players_ofBlocks (base : Base) (blocks : Option Blocks) (port : Nat) (h : port < 4) :
    (ofBlocks base blocks).players[port] =
      base.seats[port].player? base.isTeams (seatBlocks blocks ⟨port, h⟩) := by
  change (Vector.zipWith _ base.seats (seatAdditions _ _))[port] = _
  rw [seatAdditions_eq, Vector.getElem_zipWith, Vector.getElem_ofFn]

theorem additions_of_player? {seat : Seat} {isTeams : Bool}
    {additions : Option (Extended ControllerFixes String)} {player : Player}
    (h : seat.player? isTeams additions = some player) : player.additions = additions := by
  obtain ⟨type, -, rfl⟩ := Option.map_eq_some_iff.mp h
  rfl

theorem has_seatBlocks {blocks : Option Blocks} {k : Nat}
    (h : Blocks.layers.optional.Has blocks k) (port : Fin 4) :
    seatLayers.Has (seatBlocks blocks port) (min k 2) := by
  rcases blocks with _ | ⟨fixes, _ | ⟨tags, additions⟩⟩
  · obtain rfl : k = 0 := h
    rfl
  · match k, h with
    | 1, _ => rfl
  · match k, h with
    | k + 2, _ =>
      rw [Nat.min_eq_right (Nat.le_add_left 2 k)]
      rfl

theorem has_rest {blocks : Option Blocks} {k : Nat} (h : Blocks.layers.optional.Has blocks k) :
    restLayers.Has ((blocks.bind (·.more)).bind (·.more)) (k - 2) := by
  rcases blocks with _ | ⟨fixes, _ | ⟨tags, additions⟩⟩
  · obtain rfl : k = 0 := h
    rfl
  · match k, h with
    | 1, _ => rfl
  · match k, h with
    | k + 2, h => exact h

theorem has_ofBlocks (base : Base) {blocks : Option Blocks} {k : Nat}
    (h : Blocks.layers.optional.Has blocks k) : layers.Has (ofBlocks base blocks) k := by
  refine ⟨fun player hm => ?_, has_rest h⟩
  obtain ⟨port, hport, hplayer⟩ := List.getElem_of_mem hm
  rw [Vector.length_toList] at hport
  rw [Vector.getElem_toList, players_ofBlocks] at hplayer
  rw [additions_of_player? hplayer]
  exact has_seatBlocks h _

theorem seatBlocks_upTo (blocks : Option Blocks) (k : Nat) (port : Fin 4) :
    seatBlocks (Blocks.layers.optional.upTo k blocks) port =
      seatLayers.upTo k (seatBlocks blocks port) := by
  rcases blocks with _ | ⟨fixes, _ | ⟨tags, additions⟩⟩ <;> rcases k with _ | _ | k <;> rfl

theorem rest_upTo (blocks : Option Blocks) (k : Nat) :
    ((Blocks.layers.optional.upTo k blocks).bind (·.more)).bind (·.more) =
      restLayers.upTo (k - 2) ((blocks.bind (·.more)).bind (·.more)) := by
  rcases blocks with _ | ⟨fixes, _ | ⟨tags, additions⟩⟩ <;> rcases k with _ | _ | _ | k <;> rfl

theorem upTo_ofBlocks (base : Base) (blocks : Option Blocks) (k : Nat) :
    layers.upTo k (ofBlocks base blocks) =
      ofBlocks base (Blocks.layers.optional.upTo k blocks) := by
  have hplayers : (layers.upTo k (ofBlocks base blocks)).players =
      (ofBlocks base (Blocks.layers.optional.upTo k blocks)).players := by
    ext1 port hport
    change (Vector.map _ (ofBlocks base blocks).players)[port] = _
    rw [Vector.getElem_map, players_ofBlocks, players_ofBlocks, seatBlocks_upTo, Seat.player?,
      Seat.player?, Option.map_map]
    rfl
  have hrest : (layers.upTo k (ofBlocks base blocks)).additions =
      (ofBlocks base (Blocks.layers.optional.upTo k blocks)).additions :=
    (rest_upTo blocks k).symm
  -- The other fields come from the base, on both sides.
  unfold ofBlocks ofParts layers at *
  simp only [Start.mk.injEq, true_and]
  exact ⟨hplayers, hrest⟩

theorem stagedAt_reader {s : Source} (hs : s.InMemory) :
    reader.StagedAt layers [320, 352, 416, 417, 418, 420, 584, 700, 701, 760] s := by
  have behind : ∀ base, (ofBlocks base <$> Blocks.reader.ifAny).StagedAt layers
      [0, 32, 96, 97, 98, 100, 264, 380, 381, 440] (s.skip Base.layout.size) := fun base =>
    (Blocks.staged_reader.ifAny (hs.skip _)).map (fun _ _ => has_ofBlocks base)
      fun k blocks => upTo_ofBlocks base blocks k
  rw [reader_eq]
  change StagedAt _ layers
    ([0, 32, 96, 97, 98, 100, 264, 380, 381, 440].map (Base.layout.size + ·)) s
  exact .read_bind hs fun _ => behind _

end Start

/-- A frame payload is about one of the ports, and the word at the place of the direction gives one,
if the payload gets so far. -/
structure FramePayload.Sound (place : Nat) (payload : Bytes) : Prop where
  port : (FrameId.ofPayload payload).port < 4
  directed : place + 4 ≤ payload.length →
    (Binary64.ofSingle (payload.slice place 4).unsigned).isZero = false ∧
      (Binary64.ofSingle (payload.slice place 4).unsigned).isNaN = false

theorem Direction.exists_ofSign_iff {x : Binary64} :
    (∃ direction, ofSign x = .ok direction) ↔ x.isZero = false ∧ x.isNaN = false := by
  unfold ofSign Binary64.isBelowZero Binary64.isAboveZero
  cases x.negative <;> cases x.isZero <;> cases x.isNaN <;> simp

theorem Slots.exists_predict_iff {slots : Slots} {id : FrameId} :
    (∃ character, slots.predict id = .ok character) ↔ 0 ≤ id.port ∧ id.port < 4 := by
  unfold predict find FrameId.slot
  split
  · exact iff_of_true ⟨_, rfl⟩ ‹_›
  · exact iff_of_false nofun ‹_›

theorem Slots.exists_update_iff {slots : Slots} {id : FrameId} {character : Int}
    {action : ActionState} :
    (∃ after, slots.update id character action = .ok after) ↔ 0 ≤ id.port ∧ id.port < 4 := by
  unfold update FrameId.slot
  split
  · exact iff_of_true ⟨_, rfl⟩ ‹_›
  · exact iff_of_false nofun ‹_›

theorem FrameId.ofPayload_append {payload more : Bytes} (h : 6 ≤ payload.length) :
    ofPayload (payload ++ more) = ofPayload payload := by
  rw [ofPayload, ofPayload, Bytes.slice_append (by omega), Bytes.slice_append (by omega),
    Bytes.slice_append (by omega)]

theorem FramePayload.Sound.of_append {place : Nat} {payload more : Bytes}
    (h : Sound place (payload ++ more)) (hid : 6 ≤ payload.length)
    (hplace : place + 4 ≤ payload.length) : Sound place payload where
  port := by
    rw [← FrameId.ofPayload_append hid]
    exact h.port
  directed _ := by
    rw [← Bytes.slice_append hplace]
    exact h.directed (by rw [List.length_append]; omega)

/-- Where the base behind the id is there in full, so is the direction in it. -/
theorem FramePayload.Sound.exists_direction {place size : Nat} {payload : Bytes}
    (h : Sound place payload) (hid : FrameId.layout.size ≤ payload.length)
    (hsize : size ≤ ((Source.ofBytes payload).skip FrameId.layout.size).left.length)
    (hplace : place + 4 ≤ FrameId.layout.size + size) :
    ∃ direction,
      Direction.ofSign (.ofSingle (payload.slice place 4).unsigned) = .ok direction := by
  refine Direction.exists_ofSign_iff.mpr (h.directed ?_)
  change size ≤ (payload.drop FrameId.layout.size).length at hsize
  rw [List.length_drop] at hsize
  omega

namespace Pre

def Additions.layers : Layers Additions :=
  .extended .base

def layers : Layers (FrameEvent Pre) where
  Has event k := (Layers.optional Additions.layers).Has event.event.additions k
  upTo k event := { event with event := { event.event with
    additions := (Layers.optional Additions.layers).upTo k event.event.additions } }

theorem Additions.staged_reader : Additions.reader.Staged layers [1, 5] :=
  .extended _ (by decide) (.read _ (by decide))

theorem direction_valueOf_layout (payload : Bytes) :
    (Base.layout.valueOf ((Source.ofBytes payload).skip FrameId.layout.size).left).direction =
      .ofSingle (payload.slice 20 4).unsigned := by
  change Binary64.ofSingle (Bytes.slice ((payload.drop 6).drop 14) 0 4).unsigned = _
  rw [Bytes.slice_drop, Bytes.slice_drop]

theorem stagedAt_reader (slots : Slots) {payload : Bytes} (h : FramePayload.Sound 20 payload) :
    (reader slots).StagedAt layers [58, 59, 63] (.ofBytes payload) := by
  have hs := Source.inMemory_ofBytes payload
  obtain ⟨character, hpredict⟩ :=
    Slots.exists_predict_iff.mpr ⟨Int.natCast_nonneg _, h.port⟩
  change StagedAt _ layers ([52, 53, 57].map (FrameId.layout.size + ·)) _
  refine .read_bind hs fun hid => ?_
  rw [FrameId.valueOf_layout]
  refine .checked_bind hpredict ?_
  change StagedAt _ layers ([0, 1, 5].map (Base.layout.size + ·)) _
  refine .read_bind (hs.skip _) fun hbase => ?_
  obtain ⟨direction, hdirection⟩ := h.exists_direction hid hbase (by decide)
  rw [← direction_valueOf_layout] at hdirection
  refine .checked_bind hdirection ?_
  rw [bind_pure_comp]
  exact (Additions.staged_reader.ifAny ((hs.skip _).skip _)).map (fun _ _ hhas => hhas)
    fun _ _ => by simp only [layers]

theorem sound_of_ok {slots : Slots} {payload : Bytes} {event : FrameEvent Pre}
    (h : ofPayload slots payload = .ok event) : FramePayload.Sound 20 payload := by
  obtain ⟨t, hr⟩ := onBytes_ok h
  obtain ⟨id, s₁, hid, h₁⟩ := Decoder.run_bind_eq_ok hr
  obtain ⟨character, s₂, hc, h₂⟩ := Decoder.run_bind_eq_ok h₁
  obtain ⟨base, s₃, hb, h₃⟩ := Decoder.run_bind_eq_ok h₂
  obtain ⟨direction, s₄, hd, -⟩ := Decoder.run_bind_eq_ok h₃
  obtain ⟨-, rfl, rfl⟩ := Layout.read_ok hid
  obtain ⟨hpredict, rfl⟩ := Decoder.ofChecked_ok hc
  obtain ⟨-, rfl, -⟩ := Layout.read_ok hb
  obtain ⟨hdirection, -⟩ := Decoder.ofChecked_ok hd
  have hport := Slots.exists_predict_iff.mp ⟨character, hpredict⟩
  have hdirected := Direction.exists_ofSign_iff.mp ⟨direction, hdirection⟩
  rw [direction_valueOf_layout] at hdirected
  exact ⟨hport.2, fun _ => hdirected⟩

theorem governedBy (slots : Slots) :
    GovernedBy [58, 59, 63] layers (FramePayload.Sound 20) (ofPayload slots) :=
  governedBy_of_stagedAt (fun _ => stagedAt_reader slots) fun payload more k event hk h =>
    (sound_of_ok h).of_append (hk.le (by decide)) (hk.le (by decide))

end Pre

namespace Post

def Additions.layers : Layers Additions :=
  .extended (.extended (.extended (.extended (.extended .base))))

def layers : Layers (FrameEvent Post) where
  Has event k := (Layers.optional Additions.layers).Has event.event.additions k
  upTo k event := { event with event := { event.event with
    additions := (Layers.optional Additions.layers).upTo k event.event.additions } }

theorem Additions.staged_reader :
    Additions.reader.Staged layers [4, 18, 19, 39, 43, 47] :=
  .extended _ (by decide) (.extended _ (by decide) (.extended _ (by decide)
    (.extended _ (by decide) (.extended _ (by decide) (.read _ (by decide))))))

theorem direction_valueOf_layout (payload : Bytes) :
    (Base.layout.valueOf ((Source.ofBytes payload).skip FrameId.layout.size).left).direction =
      .ofSingle (payload.slice 17 4).unsigned := by
  change Binary64.ofSingle (Bytes.slice ((payload.drop 6).drop 11) 0 4).unsigned = _
  rw [Bytes.slice_drop, Bytes.slice_drop]

theorem stagedAt_reader {payload : Bytes} (h : FramePayload.Sound 17 payload) :
    reader.StagedAt layers [33, 37, 51, 52, 72, 76, 80] (.ofBytes payload) := by
  have hs := Source.inMemory_ofBytes payload
  change StagedAt _ layers ([27, 31, 45, 46, 66, 70, 74].map (FrameId.layout.size + ·)) _
  refine .read_bind hs fun hid => ?_
  change StagedAt _ layers ([0, 4, 18, 19, 39, 43, 47].map (Base.layout.size + ·)) _
  refine .read_bind (hs.skip _) fun hbase => ?_
  obtain ⟨direction, hdirection⟩ := h.exists_direction hid hbase (by decide)
  rw [← direction_valueOf_layout] at hdirection
  refine .checked_bind hdirection ?_
  rw [bind_pure_comp]
  exact (Additions.staged_reader.ifAny ((hs.skip _).skip _)).map (fun _ _ hhas => hhas)
    fun _ _ => by simp only [layers]

theorem sound_of_ok {slots after : Slots} {payload : Bytes} {event : FrameEvent Post}
    (h : ofPayload slots payload = .ok (event, after)) : FramePayload.Sound 17 payload := by
  obtain ⟨hp, hu⟩ := ofPayload_eq_ok_iff.mp h
  obtain ⟨t, hr⟩ := onBytes_ok hp
  obtain ⟨hid, -⟩ := reader_ok hr
  obtain ⟨id, s₁, hid', h₁⟩ := Decoder.run_bind_eq_ok hr
  obtain ⟨base, s₂, hb, h₂⟩ := Decoder.run_bind_eq_ok h₁
  obtain ⟨direction, s₃, hd, -⟩ := Decoder.run_bind_eq_ok h₂
  obtain ⟨-, -, rfl⟩ := Layout.read_ok hid'
  obtain ⟨-, rfl, -⟩ := Layout.read_ok hb
  obtain ⟨hdirection, -⟩ := Decoder.ofChecked_ok hd
  have hport := Slots.exists_update_iff.mp ⟨after, hu⟩
  rw [hid] at hport
  have hdirected := Direction.exists_ofSign_iff.mp ⟨direction, hdirection⟩
  rw [direction_valueOf_layout] at hdirected
  exact ⟨hport.2, fun _ => hdirected⟩

theorem governedBy (slots : Slots) :
    GovernedBy [33, 37, 51, 52, 72, 76, 80] layers.first (FramePayload.Sound 17)
      (ofPayload slots) where
  decoded payload k hs hk := by
    obtain ⟨event, t, hr, hhas, -⟩ := (stagedAt_reader hs).takes k hk
    obtain ⟨hid, -⟩ := reader_ok hr
    obtain ⟨after, hu⟩ : ∃ after,
        slots.update event.id event.event.character event.event.state = .ok after := by
      rw [hid]
      exact Slots.exists_update_iff.mpr ⟨Int.natCast_nonneg _, hs.port⟩
    exact ⟨(event, after), ofPayload_eq_ok_iff.mpr ⟨onBytes_of_ok hr, hu⟩, hhas⟩
  refused payload hs hk := by
    obtain ⟨cause, t, hr, hc, -⟩ := (stagedAt_reader hs).runsDry hk
    have he : reader.onBytes payload = .error (.ofCause cause) := congrArg Prod.fst hr
    refine ⟨cause, ?_, hc⟩
    rw [ofPayload, he]
    rfl
  front payload more k result hk h := by
    obtain ⟨event, after⟩ := result
    obtain ⟨hr, hu⟩ := ofPayload_eq_ok_iff.mp h
    have hs := (sound_of_ok h).of_append (hk.le (by decide)) (hk.le (by decide))
    exact ofPayload_eq_ok_iff.mpr ⟨(stagedAt_reader hs).onBytes_front hk hr, hu⟩

end Post

/-- Payload lengths. Of the payloads of a game start, of a game end, and of the events before and
after a frame, just those of the accepted lengths are decoded, as far as a frame payload is sound,
and the place of its length says how many blocks a record has. The front of a payload gives the
same record without the blocks that it does not have. -/
theorem payloadLength_governs (slots : Slots) :
    GovernedBy [320, 352, 416, 417, 418, 420, 584, 700, 701, 760] Start.layers (fun _ => True)
      Start.ofPayload ∧
    GovernedBy [1, 2, 6] End.layers (fun _ => True) End.ofPayload ∧
    GovernedBy [58, 59, 63] Pre.layers (FramePayload.Sound 20) (Pre.ofPayload slots) ∧
    GovernedBy [33, 37, 51, 52, 72, 76, 80] Post.layers.first (FramePayload.Sound 17)
      (Post.ofPayload slots) := by
  refine ⟨?_, ?_, Pre.governedBy slots, Post.governedBy slots⟩
  · exact governedBy_of_stagedAt
      (fun payload _ => Start.stagedAt_reader (Source.inMemory_ofBytes payload))
      fun _ _ _ _ _ _ => trivial
  · exact governedBy_of_stagedAt
      (fun payload _ => End.staged_reader.stagedAt _ (Source.inMemory_ofBytes payload))
      fun _ _ _ _ _ _ => trivial

/-- A frame payload without blocks, which faces right. -/
def facingRight : Bytes :=
  List.replicate 17 0 ++ [0x3F, 0x80, 0, 0] ++ List.replicate 12 0

/-- It is decoded as a whole and not without its last byte. A game end with one block is decoded
without it too. -/
theorem payloadLength_governs_facingRight :
    (∃ result, Post.ofPayload .initial facingRight = .ok result ∧ Post.layers.Has result.1 0) ∧
      (∃ cause, Post.ofPayload .initial (facingRight.take 32) = .error (.ofCause cause) ∧
        cause.errorClass = .truncatedInput) ∧
      ∃ finish, End.ofPayload [2, 0xFF] = .ok finish ∧ End.layers.Has finish 1 ∧
        End.ofPayload [2] = .ok (End.layers.upTo 0 finish) := by
  obtain ⟨-, hend, -, hpost⟩ := payloadLength_governs .initial
  have whole : FramePayload.Sound 17 facingRight := ⟨by decide, by decide⟩
  have short : FramePayload.Sound 17 (facingRight.take 32) := ⟨by decide, by decide⟩
  have none_allotted : ∀ k, ¬Allots [33, 37, 51, 52, 72, 76, 80] (facingRight.take 32).length k :=
    fun k hk => absurd (hk.le (by decide) : 33 ≤ (facingRight.take 32).length) (by decide)
  obtain ⟨finish, hfinish, hblocks⟩ := hend.decoded [2, 0xFF] 1 trivial ⟨2, rfl, .inl rfl⟩
  exact ⟨hpost.decoded _ 0 whole ⟨33, rfl, .inl rfl⟩, hpost.refused _ short none_allotted,
    finish, hfinish, hblocks, hend.front [2] [0xFF] 0 finish ⟨1, rfl, .inl rfl⟩ hfinish⟩

end Replay
