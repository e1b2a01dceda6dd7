import Replay.Proofs.CutLayouts
import Replay.Proofs.Truncation

/-!
Records in layers. A reader of a base part, and of blocks behind it that are there only if the data
goes on, takes data of certain lengths and no other. The length tells how many blocks there are,
and data that stops in front of a block gives the same record without that block.
-/

namespace Replay

/-- Data of the length has `k` blocks behind its base: of the accepted lengths it has the one at
place `k`, or it is longer than that and there is no other. -/
def Allots (lengths : List Nat) (length k : Nat) : Prop :=
  ∃ accepted, lengths[k]? = some accepted ∧
    (length = accepted ∨ accepted < length ∧ k + 1 = lengths.length)

namespace Allots

variable {lengths : List Nat} {n k : Nat}

theorem singleton_iff {size : Nat} : Allots [size] n k ↔ size ≤ n ∧ k = 0 := by
  constructor
  · rintro ⟨m, hm, hn⟩
    obtain ⟨hk, hm⟩ := List.getElem?_eq_some_iff.mp hm
    obtain rfl : k = 0 := Nat.lt_one_iff.mp hk
    cases hm
    exact ⟨hn.elim (fun h => Nat.le_of_eq h.symm) fun h => Nat.le_of_lt h.1, rfl⟩
  · rintro ⟨hn, rfl⟩
    exact ⟨size, rfl, (Nat.lt_or_eq_of_le hn).elim (fun h => .inr ⟨h, rfl⟩) fun h => .inl h.symm⟩

/-- Behind a part of a fixed size the accepted lengths are those of the rest. -/
theorem map_add_iff {size : Nat} :
    Allots (lengths.map (size + ·)) n k ↔ size ≤ n ∧ Allots lengths (n - size) k := by
  simp only [Allots, List.getElem?_map, Option.map_eq_some_iff, List.length_map]
  constructor
  · rintro ⟨_, ⟨m, hm, rfl⟩, hn⟩
    exact ⟨by omega, m, hm, by omega⟩
  · rintro ⟨hle, m, hm, hn⟩
    exact ⟨size + m, ⟨m, hm, rfl⟩, by omega⟩

theorem cons_succ_iff {m : Nat} : Allots (m :: lengths) n (k + 1) ↔ Allots lengths n k := by
  simp only [Allots, List.getElem?_cons_succ, List.length_cons, Nat.add_right_cancel_iff]

/-- With more to come there is nothing behind the base just when its length is met. -/
theorem cons_zero_iff {m : Nat} (h : lengths ≠ []) : Allots (m :: lengths) n 0 ↔ n = m := by
  have hlength : (0 : Nat) + 1 ≠ (m :: lengths).length := by
    rw [List.length_cons]
    exact fun he => h (List.length_eq_zero_iff.mp (Nat.add_right_cancel he).symm)
  constructor
  · rintro ⟨_, hm, hn⟩
    cases hm
    exact hn.resolve_right fun hl => hlength hl.2
  · rintro rfl
    exact ⟨n, rfl, .inl rfl⟩

/-- No data is shorter than all of the accepted lengths. -/
theorem le {bound : Nat} (h : Allots lengths n k) (hb : ∀ m ∈ lengths, bound ≤ m) : bound ≤ n := by
  obtain ⟨m, hm, hn⟩ := h
  have hle := hb m (List.mem_of_getElem? hm)
  omega

end Allots

/-- The blocks of a record behind its base. -/
structure Layers (α : Type) where
  /-- The record has just so many blocks. -/
  Has : α → Nat → Prop
  /-- The record without the blocks behind the given number of them. -/
  upTo : Nat → α → α

namespace Layers

variable {α β : Type}

/-- There is nothing but a base. -/
def base : Layers α where
  Has _ k := k = 0
  upTo _ a := a

/-- A block that may be there, with the blocks behind it. -/
def optional (layers : Layers α) : Layers (Option α) where
  Has
    | none, k => k = 0
    | some _, 0 => False
    | some a, k + 1 => layers.Has a k
  upTo
    | 0, _ => none
    | k + 1, block => block.map (layers.upTo k)

/-- What comes with a record has no blocks. -/
def first (layers : Layers α) : Layers (α × β) where
  Has pair k := layers.Has pair.1 k
  upTo k pair := (layers.upTo k pair.1, pair.2)

def extended (next : Layers β) : Layers (Extended α β) where
  Has record k := next.optional.Has record.more k
  upTo k record := { record with more := next.optional.upTo k record.more }

end Layers

namespace Reader

variable {α β : Type} {reader : Reader α} {s : Source}

theorem RunsDry.of_bind {next : α → Reader β} {a : α} {t : Source}
    (h : reader.run s = (.ok a, t)) (hn : (next a).RunsDry t) : (reader >>= next).RunsDry s := by
  obtain ⟨cause, u, hr, hc, hu⟩ := hn
  exact ⟨cause, u, (Decoder.run_bind_of_ok h _).trans hr, hc, hu⟩

/-- A layout runs dry on data that is too short for it. -/
theorem runsDry_readUnder {layout : Layout α} (path : List String) (hs : s.InMemory)
    (h : s.left.length < layout.size) : (layout.readUnder path).RunsDry s := by
  obtain ⟨field, -, -, hrun⟩ := Layout.readUnder_cut path 0 hs h
  exact ⟨_, _, hrun, rfl, List.drop_length⟩

/-- On the data that a source has left, the reader runs dry unless the data has an accepted length.
If it has, then so many blocks are read, and with more data behind the same record is read but for
blocks that are read in addition. -/
structure StagedAt (reader : Reader α) (layers : Layers α) (lengths : List Nat) (s : Source) :
    Prop where
  takes : ∀ k, Allots lengths s.left.length k → ∃ a t, reader.run s = (.ok a, t) ∧
    layers.Has a k ∧
    ∀ more b u, reader.run (s.extend more) = (.ok b, u) → layers.upTo k b = a
  runsDry : (∀ k, ¬Allots lengths s.left.length k) → reader.RunsDry s

variable {layers : Layers α} {lengths : List Nat}

theorem StagedAt.read (layout : Layout α) (hs : s.InMemory) :
    layout.read.StagedAt .base [layout.size] s where
  takes k h := by
    obtain ⟨hle, rfl⟩ := Allots.singleton_iff.mp h
    refine ⟨_, _, Layout.readUnder_of_size_le [] hs hle, rfl, ?_⟩
    intro more b u hb
    obtain ⟨-, rfl, -⟩ := Layout.read_ok hb
    exact Layout.valueOf_append hle
  runsDry h := by
    refine runsDry_readUnder [] hs (Nat.lt_of_not_le fun hle => h 0 ?_)
    exact Allots.singleton_iff.mpr ⟨hle, rfl⟩

/-- Behind a part of a fixed layout a reader goes on with the rest. -/
theorem StagedAt.read_bind {layout : Layout β} {next : β → Reader α} (hs : s.InMemory)
    (h : layout.size ≤ s.left.length →
      (next (layout.valueOf s.left)).StagedAt layers lengths (s.skip layout.size)) :
    (layout.read >>= next).StagedAt layers (lengths.map (layout.size + ·)) s where
  takes k hk := by
    obtain ⟨hle, hk⟩ := Allots.map_add_iff.mp hk
    obtain ⟨a, t, hr, hhas, hmore⟩ := (h hle).takes k (by rwa [Source.left_skip, List.length_drop])
    have hbase := Layout.readUnder_of_size_le [] hs hle
    refine ⟨a, t, (Decoder.run_bind_of_ok hbase _).trans hr, hhas, ?_⟩
    intro more b u hb
    obtain ⟨_, v, hv, hb⟩ := Decoder.run_bind_eq_ok hb
    obtain ⟨-, rfl, rfl⟩ := Layout.read_ok hv
    rw [Source.extend_skip more hle, Source.extend, Layout.valueOf_append hle] at hb
    exact hmore more b u hb
  runsDry hk := by
    rcases Nat.lt_or_ge s.left.length layout.size with hlt | hle
    · exact (runsDry_readUnder [] hs hlt).bind next
    · refine .of_bind (Layout.readUnder_of_size_le [] hs hle) ((h hle).runsDry fun k h' => ?_)
      rw [Source.left_skip, List.length_drop] at h'
      exact hk k (Allots.map_add_iff.mpr ⟨hle, h'⟩)

/-- What is found sound does not stand in the way. -/
theorem StagedAt.checked_bind {r : Except Cause β} {b : β} {next : β → Reader α} (hr : r = .ok b)
    (h : (next b).StagedAt layers lengths s) :
    StagedAt (Decoder.ofChecked r >>= next) layers lengths s := by
  rw [hr]
  exact h

/-- Records are as good as what they are made of. -/
theorem StagedAt.map {layers' : Layers β} {f : α → β} (h : reader.StagedAt layers lengths s)
    (has : ∀ a k, layers.Has a k → layers'.Has (f a) k)
    (upTo : ∀ k a, layers'.upTo k (f a) = f (layers.upTo k a)) :
    (f <$> reader).StagedAt layers' lengths s where
  takes k hk := by
    obtain ⟨a, t, hr, hhas, hmore⟩ := h.takes k hk
    rw [map_eq_pure_bind]
    refine ⟨f a, t, Decoder.run_bind_of_ok hr _, has a k hhas, ?_⟩
    intro more _ v hb
    obtain ⟨b, _, hb, he⟩ := Decoder.run_bind_eq_ok hb
    cases he
    rw [upTo, hmore more b v hb]
  runsDry hk := by
    rw [map_eq_pure_bind]
    exact (h.runsDry hk).bind _

theorem ifAny_run (reader : Reader α) (s : Source) :
    reader.ifAny.run s =
      if s.left.length = 0 then (.ok none, s) else (some <$> reader).run s := by
  change (if s.left.length = 0 then pure none else some <$> reader : Reader (Option α)).run s = _
  split <;> rfl

theorem ifAny_bind (reader : Reader α) (next : Option α → Reader β) :
    reader.ifAny >>= next = Decoder.remaining >>= fun n =>
      if n = 0 then next none else reader >>= fun a => next (some a) := by
  rw [ifAny, bind_assoc]
  congr 1
  funext n
  split
  · rw [pure_bind]
  · rw [bind_map_left]

/-- What is read only if any data is left. -/
theorem StagedAt.ifAny (h : reader.StagedAt layers lengths s) (hne : lengths ≠ [])
    (hp : ∀ m ∈ lengths, 0 < m) : reader.ifAny.StagedAt layers.optional (0 :: lengths) s := by
  have hsome : (some <$> reader).StagedAt
      ⟨fun block k => layers.optional.Has block (k + 1),
        fun k => layers.optional.upTo (k + 1)⟩ lengths s :=
    h.map (fun _ _ hhas => hhas) fun _ _ => rfl
  constructor
  · intro k hk
    cases k with
    | zero =>
      have hl := (Allots.cons_zero_iff hne).mp hk
      refine ⟨none, s, by rw [ifAny_run, if_pos hl], rfl, fun _ _ _ _ => rfl⟩
    | succ k =>
      have hk := Allots.cons_succ_iff.mp hk
      have hl := Nat.ne_of_gt (hk.le hp)
      obtain ⟨a, t, hr, hhas, hmore⟩ := hsome.takes k hk
      refine ⟨a, t, by rw [ifAny_run, if_neg hl, hr], hhas, ?_⟩
      intro more b u hb
      have hl' : (s.extend more).left.length ≠ 0 := by
        rw [Source.extend, List.length_append]
        omega
      rw [ifAny_run, if_neg hl'] at hb
      exact hmore more b u hb
  · intro hk
    have hl : s.left.length ≠ 0 := fun hl => hk 0 ((Allots.cons_zero_iff hne).mpr hl)
    obtain ⟨cause, t, hr, hc, ht⟩ :=
      hsome.runsDry fun k h' => hk (k + 1) (Allots.cons_succ_iff.mpr h')
    exact ⟨cause, t, by rw [ifAny_run, if_neg hl, hr], hc, ht⟩

/-- The reader is staged on all data in memory, and it accepts some, but not the empty data. -/
structure Staged (reader : Reader α) (layers : Layers α) (lengths : List Nat) : Prop where
  stagedAt : ∀ s, s.InMemory → reader.StagedAt layers lengths s
  accepts : lengths ≠ []
  pos : ∀ m ∈ lengths, 0 < m

theorem Staged.read (layout : Layout α) (h : 0 < layout.size) :
    layout.read.Staged .base [layout.size] where
  stagedAt _ hs := .read layout hs
  accepts := List.cons_ne_nil _ _
  pos m hm := by rwa [List.mem_singleton.mp hm]

theorem Staged.ifAny (h : reader.Staged layers lengths) (hs : s.InMemory) :
    reader.ifAny.StagedAt layers.optional (0 :: lengths) s :=
  (h.stagedAt s hs).ifAny h.accepts h.pos

theorem Staged.extended (layout : Layout β) (hl : 0 < layout.size)
    (h : reader.Staged layers lengths) :
    (layout.extended reader).Staged layers.extended
      ((0 :: lengths).map (layout.size + ·)) where
  stagedAt s hs := by
    refine .read_bind hs fun _ => ?_
    rw [bind_pure_comp]
    exact (h.ifAny (hs.skip _)).map (fun _ _ hhas => hhas) fun _ _ => rfl
  accepts := List.cons_ne_nil _ _
  pos m hm := by
    obtain ⟨_, -, rfl⟩ := List.mem_map.mp hm
    exact Nat.add_pos_left hl _

end Reader

end Replay
