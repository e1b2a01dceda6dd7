import Replay.Game.Start
import Replay.Proofs.Fields

/-!
Layouts on data that may be cut short. A layout of enough data takes its size and depends on
nothing behind it. On less data it fails in the one field that the data ends in, and what there is
of the field is taken too.
-/

namespace Replay.Layout

variable {α : Type}

/-- A block of a layout: the names around it, where it starts, and how many bytes it has. -/
structure Field where
  path : List String
  start : Nat
  size : Nat
deriving DecidableEq

/-- Where the field stops. -/
def Field.stop (field : Field) : Nat :=
  field.start + field.size

/-- Data of the length goes up to the field or into it, but not through it. -/
def Field.IsCutAt (field : Field) (length : Nat) : Prop :=
  field.start ≤ length ∧ length < field.stop

instance (field : Field) (length : Nat) : Decidable (field.IsCutAt length) :=
  inferInstanceAs (Decidable (_ ∧ _))

/-- The fields of a layout under a path, one behind the other from an offset on. -/
def fieldsUnder {α : Type} (path : List String) (start : Nat) : Layout α → List Field
  | .value _ => []
  | .block size => [⟨path, start, size⟩]
  | .named name layout => layout.fieldsUnder (path ++ [name]) start
  | .map _ layout => layout.fieldsUnder path start
  | .seq f layout => f.fieldsUnder path start ++ layout.fieldsUnder path (start + f.size)

def fields (layout : Layout α) : List Field :=
  layout.fieldsUnder [] 0

/-- The fields lie where the layout does. -/
theorem bounds_of_mem {layout : Layout α} {path : List String} {start : Nat} {field : Field}
    (h : field ∈ layout.fieldsUnder path start) :
    start ≤ field.start ∧ field.stop ≤ start + layout.size := by
  induction layout generalizing path start with
  | value a => cases h
  | block size =>
    obtain rfl := List.mem_singleton.mp h
    exact ⟨Nat.le_refl _, Nat.le_refl _⟩
  | named name layout ih => exact ih h
  | map f layout ih => exact ih h
  | seq f layout ihf ih =>
    rw [size]
    rcases List.mem_append.mp h with h | h
    · obtain ⟨hlow, hhigh⟩ := ihf h
      exact ⟨hlow, by omega⟩
    · obtain ⟨hlow, hhigh⟩ := ih h
      exact ⟨by omega, by omega⟩

/-- Each field stops before the next ones start. -/
theorem pairwise_fieldsUnder (layout : Layout α) (path : List String) (start : Nat) :
    (layout.fieldsUnder path start).Pairwise fun a b => a.stop ≤ b.start := by
  induction layout generalizing path start with
  | value a => exact .nil
  | block size => exact List.pairwise_singleton _ _
  | named name layout ih => exact ih _ _
  | map f layout ih => exact ih _ _
  | seq f layout ihf ih =>
    refine List.pairwise_append.mpr ⟨ihf _ _, ih _ _, fun a ha b hb => ?_⟩
    exact (bounds_of_mem ha).2.trans (bounds_of_mem hb).1

/-- No data ends in two fields. -/
theorem eq_of_isCutAt {layout : Layout α} {field other : Field} {length : Nat}
    (hfield : field ∈ layout.fields) (hother : other ∈ layout.fields)
    (hcut : field.IsCutAt length) (hcut' : other.IsCutAt length) : other = field := by
  have hapart := List.pairwise_iff_getElem.mp (pairwise_fieldsUnder layout [] 0)
  obtain ⟨i, hi, rfl⟩ := List.getElem_of_mem hfield
  obtain ⟨j, hj, rfl⟩ := List.getElem_of_mem hother
  rcases Nat.lt_trichotomy i j with hij | rfl | hij
  · exact absurd (hcut.2.trans_le (hapart i j hi hj hij)) (Nat.not_lt_of_le hcut'.1)
  · rfl
  · exact absurd (hcut'.2.trans_le (hapart j i hj hi hij)) (Nat.not_lt_of_le hcut.1)

/-- A layout that finds too little fails in the field that the data ends in. -/
theorem readUnder_cut {layout : Layout α} (path : List String) (start : Nat) {s : Source}
    (hs : s.InMemory) (h : s.left.length < layout.size) :
    ∃ field ∈ layout.fieldsUnder path start, field.IsCutAt (start + s.left.length) ∧
      (layout.readUnder path).run s =
        (.error (.ofCause (.shortField field.path field.size
          (start + s.left.length - field.start))), s.skip s.left.length) := by
  -- Offsets count from the start of the whole layout, of which this one may be a part.
  induction layout generalizing path start s with
  | value a => exact absurd h (Nat.not_lt_zero _)
  | block size =>
    have hlt : s.left.length < size := h
    refine ⟨⟨path, start, size⟩, List.mem_singleton.mpr rfl, ⟨Nat.le_add_right _ _, ?_⟩, ?_⟩
    · exact Nat.add_lt_add_left hlt _
    · rw [readUnder, run_readBlock, hs.read, List.take_of_length_le (Nat.le_of_lt hlt),
        Nat.min_eq_right (Nat.le_of_lt hlt), Nat.add_sub_cancel_left]
      dsimp only
      rw [if_neg (Nat.ne_of_lt hlt)]
  | named name layout ih => exact ih _ _ hs h
  | map f layout ih =>
    obtain ⟨field, hmem, hcut, hrun⟩ := ih path start hs h
    exact ⟨field, hmem, hcut, by rw [readUnder, Decoder.run_bind, hrun]⟩
  | seq f layout ihf ih =>
    rw [size] at h
    rcases Nat.lt_or_ge s.left.length f.size with hlt | hle
    · obtain ⟨field, hmem, hcut, hrun⟩ := ihf path start hs hlt
      exact ⟨field, List.mem_append_left _ hmem, hcut, by rw [readUnder, Decoder.run_bind, hrun]⟩
    · have hleft : (s.skip f.size).left.length = s.left.length - f.size := List.length_drop
      obtain ⟨field, hmem, hcut, hrun⟩ := ih path (start + f.size) (hs.skip f.size) (by omega)
      have hlength : start + f.size + (s.skip f.size).left.length = start + s.left.length := by
        omega
      rw [hlength] at hcut hrun
      refine ⟨field, List.mem_append_right _ hmem, hcut, ?_⟩
      rw [readUnder, Decoder.run_bind_of_ok (readUnder_of_size_le path hs hle), Decoder.run_bind,
        hrun, Source.skip_skip]
      dsimp only
      rw [hleft, Nat.add_sub_cancel' hle]

theorem valueOf_take {layout : Layout α} {bytes : Bytes} (h : layout.size ≤ bytes.length) :
    layout.valueOf (bytes.take layout.size) = layout.valueOf bytes := by
  have hfront : layout.size ≤ (bytes.take layout.size).length :=
    Nat.le_of_eq (List.length_take_of_le h).symm
  rw [← valueOf_append hfront, List.take_append_drop]

/-- What the bytes of a layout are read as, they are read as in front of any others. -/
theorem read_congr {layout : Layout α} {bytes : Bytes} (h : layout.size ≤ bytes.length) {t : Source}
    (ht : t.InMemory) (hsame : t.left.take layout.size = bytes.take layout.size) :
    layout.read.run t = (.ok (layout.valueOf bytes), t.skip layout.size) := by
  have hlength : layout.size ≤ t.left.length := by
    have hlengths := congrArg List.length hsame
    rw [List.length_take, List.length_take] at hlengths
    omega
  rw [read, readUnder_of_size_le [] ht hlength, ← valueOf_take hlength, hsame, valueOf_take h]

/-- On enough data in memory a layout takes as many bytes as its size says, and its value depends
on no others. On less data it is truncated: it takes all that there is and names the one field that
the data ends in, with the size of this field and how many bytes there are of it. -/
theorem read_inMemory (layout : Layout α) {s : Source} (hs : s.InMemory) :
    (layout.size ≤ s.left.length → ∃ a, layout.read.run s = (.ok a, s.skip layout.size) ∧
      ∀ t : Source, t.InMemory → t.left.take layout.size = s.left.take layout.size →
        layout.read.run t = (.ok a, t.skip layout.size)) ∧
    (s.left.length < layout.size → ∃ field : Field,
      (∀ other, other ∈ layout.fields ∧ other.IsCutAt s.left.length ↔ other = field) ∧
      ∃ cause : Cause, cause.errorClass = .truncatedInput ∧
        cause = .shortField field.path field.size (s.left.length - field.start) ∧
        layout.read.run s = (.error (.ofCause cause), s.skip s.left.length)) := by
  constructor
  · intro h
    exact ⟨_, readUnder_of_size_le [] hs h, fun t ht hsame => read_congr h ht hsame⟩
  · intro h
    obtain ⟨field, hmem, hcut, hrun⟩ := readUnder_cut [] 0 hs h
    rw [Nat.zero_add] at hcut hrun
    refine ⟨field, fun other => ⟨?_, ?_⟩, _, rfl, rfl, hrun⟩
    · rintro ⟨hother, hcut'⟩
      exact eq_of_isCutAt hmem hother hcut hcut'
    · rintro rfl
      exact ⟨hmem, hcut⟩

/-- The controller fixes of four ports, whole with a byte behind them and then cut between those of
the first port and of the second, and a seat that is cut in its first padding. -/
theorem read_inMemory_seats :
    (∃ fixes, Start.fixesLayout.read.run (.ofBytes (List.replicate 33 0)) =
      (.ok fixes, (Source.ofBytes (List.replicate 33 0)).skip 32)) ∧
    Start.fixesLayout.read.run (.ofBytes [0, 0, 0, 1, 0, 0, 0, 2]) =
      (.error (.ofCause (.shortField ["dash_back"] 4 0)),
        (Source.ofBytes [0, 0, 0, 1, 0, 0, 0, 2]).skip 8) ∧
    Seat.layout.read.run (.ofBytes [2, 0, 4, 1, 0, 0]) =
      (.error (.ofCause (.shortField [] 3 2)), (Source.ofBytes [2, 0, 4, 1, 0, 0]).skip 6) := by
  refine ⟨?_, ?_, ?_⟩
  · obtain ⟨fixes, hread, -⟩ := (read_inMemory Start.fixesLayout
      (Source.inMemory_ofBytes (List.replicate 33 0))).1 (by decide)
    exact ⟨fixes, hread⟩
  · obtain ⟨field, hunique, -, -, rfl, hread⟩ := (read_inMemory Start.fixesLayout
      (Source.inMemory_ofBytes [0, 0, 0, 1, 0, 0, 0, 2])).2 (by decide)
    obtain rfl := (hunique ⟨["dash_back"], 8, 4⟩).mp (by decide)
    exact hread
  · obtain ⟨field, hunique, -, -, rfl, hread⟩ := (read_inMemory Seat.layout
      (Source.inMemory_ofBytes [2, 0, 4, 1, 0, 0])).2 (by decide)
    obtain rfl := (hunique ⟨[], 4, 3⟩).mp (by decide)
    exact hread

end Replay.Layout
