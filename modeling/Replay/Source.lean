import Replay.Failure

/-!
Where the bytes of a replay come from. Reading takes bytes off the front and nothing else, which
`Source.Reaches` says.
-/

namespace Replay

structure Source where
  /-- The bytes that have not been read yet. -/
  left : Bytes
  /-- How many bytes have been read. -/
  taken : Nat := 0
  /-- The most that one read gives. -/
  chunk : Option Nat := none
  /-- The position from which on every read fails, and the failure. -/
  fault : Option (Nat × Failure) := none
  /-- At the end of the data a read gets no answer instead of no bytes. -/
  silentEnd : Bool := false
  /-- Whether the source can say how many bytes have been read. -/
  tells : Bool := true

/-- What a read comes back with. -/
inductive Reply where
  | bytes (block : Bytes)
  | nothing
  | fault (failure : Failure)

namespace Source

def ofBytes (bytes : Bytes) : Source where
  left := bytes

def skip (s : Source) (n : Nat) : Source :=
  { s with left := s.left.drop n, taken := s.taken + n }

/-- The failure of a read that starts here. -/
def fault? (s : Source) : Option Failure :=
  match s.fault with
  | some (position, failure) => if position ≤ s.taken then some failure else none
  | none => none

/-- The bytes that a read of `n` gets. -/
def upTo (s : Source) (n : Nat) : Bytes :=
  s.left.take (min n (s.chunk.getD n))

/-- One read of at most `n` bytes. -/
def read (s : Source) (n : Nat) : Reply × Source :=
  match s.fault? with
  | some failure => (.fault failure, s)
  | none =>
    if s.silentEnd && s.left.isEmpty && n != 0 then (.nothing, s)
    else (.bytes (s.upTo n), s.skip (s.upTo n).length)

/-- How far into the data the source is, if it can say. -/
def offset (s : Source) : Option Int :=
  if s.tells then some s.taken else none

/-- The same source behind a counter that starts here and can always say how far it is. -/
def counted (s : Source) : Source :=
  { s with
    taken := 0
    tells := true
    fault := s.fault.map fun (position, failure) => (position - s.taken, failure) }

/-- Reading from `s` may leave `t`. -/
def Reaches (s t : Source) : Prop :=
  ∃ n, n ≤ s.left.length ∧ t = s.skip n

namespace Reaches

variable {s t u : Source}

theorem refl (s : Source) : s.Reaches s :=
  ⟨0, Nat.zero_le _, by simp [skip]⟩

theorem trans (hst : s.Reaches t) (htu : t.Reaches u) : s.Reaches u := by
  obtain ⟨m, hm, rfl⟩ := hst
  obtain ⟨n, hn, rfl⟩ := htu
  simp only [skip, List.length_drop] at hn
  exact ⟨m + n, by omega, by simp [skip, Nat.add_assoc]⟩

theorem length_le (h : s.Reaches t) : t.left.length ≤ s.left.length := by
  obtain ⟨n, -, rfl⟩ := h
  simp [skip]

end Reaches

theorem length_upTo_le (s : Source) (n : Nat) : (s.upTo n).length ≤ s.left.length := by
  simp only [upTo, List.length_take]
  omega

theorem read_reaches (s : Source) (n : Nat) : s.Reaches (s.read n).2 := by
  unfold read
  split
  · exact .refl s
  · split
    · exact .refl s
    · exact ⟨(s.upTo n).length, s.length_upTo_le n, rfl⟩

theorem length_read_bytes {s t : Source} {n : Nat} {block : Bytes}
    (h : s.read n = (.bytes block, t)) : t.left.length + block.length = s.left.length := by
  unfold read at h
  split at h
  · cases h
  · split at h
    · cases h
    · cases h
      have := s.length_upTo_le n
      simp only [skip, List.length_drop]
      omega

end Source

end Replay
