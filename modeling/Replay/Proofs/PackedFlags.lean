import Mathlib.Data.Nat.Digits.Lemmas
import Replay.Frame.Post
import Replay.Proofs.Fields

/-!
State flags and the bytes that they are packed from. The bytes are the digits of the value in base
256, the first one the lowest, so as many bytes as there are give each value below the bound of
their number, and only once. Every bit of every byte keeps its place, whether it has a name or not.
-/

namespace Replay

/-- Each byte holds eight bits, and behind the last byte no bit is set. -/
def Bytes.hasBit (bytes : Bytes) (bit : Nat) : Bool :=
  (bytes[bit / 8]?.getD 0).toNat.testBit (bit % 8)

namespace StateFlags

/-- The bits of a byte lie above all that are there already. -/
theorem join_eq {value place : Nat} (h : value < 2 ^ (8 * place)) (b : UInt8) :
    join value (b, place) = value + 2 ^ (8 * place) * b.toNat := by
  rw [join, Nat.shiftLeft_eq, Nat.mul_comm, Nat.or_comm, ← Nat.two_pow_add_eq_or_of_lt h,
    Nat.add_comm]

theorem join_lt {value place : Nat} (h : value < 2 ^ (8 * place)) (b : UInt8) :
    join value (b, place) < 2 ^ (8 * (place + 1)) := by
  have hb : 2 ^ (8 * place) * (b.toNat + 1) ≤ 2 ^ (8 * place) * 2 ^ 8 :=
    Nat.mul_le_mul_left _ b.toNat_lt
  rw [join_eq h, Nat.mul_succ, Nat.pow_add]
  rw [Nat.mul_succ] at hb
  omega

/-- Bytes that are joined to lower bits are the higher digits. -/
theorem foldl_join_eq (raw : Bytes) {place value : Nat} (h : value < 2 ^ (8 * place)) :
    (raw.zipIdx place).foldl join value =
      value + 2 ^ (8 * place) * Nat.ofDigits 256 (raw.map UInt8.toNat) := by
  induction raw generalizing place value with
  | nil => rfl
  | cons b raw ih =>
    rw [List.zipIdx_cons, List.foldl_cons, ih (join_lt h b), join_eq h, List.map_cons,
      Nat.ofDigits_cons, Nat.mul_succ, Nat.pow_add]
    push_cast
    ring

theorem value_ofBytes (raw : Bytes) :
    (ofBytes raw).value = Nat.ofDigits 256 (raw.map UInt8.toNat) := by
  rw [ofBytes, foldl_join_eq raw (by decide)]
  simp only [Nat.mul_zero, pow_zero, one_mul, zero_add]

theorem lt_of_mem_digits (raw : Bytes) : ∀ digit ∈ raw.map UInt8.toNat, digit < 256 := by
  intro digit h
  obtain ⟨b, -, rfl⟩ := List.mem_map.mp h
  exact b.toNat_lt

theorem value_ofBytes_lt (raw : Bytes) : (ofBytes raw).value < 2 ^ (8 * raw.length) := by
  have h := Nat.ofDigits_lt_base_pow_length (by decide) (lt_of_mem_digits raw)
  rw [value_ofBytes, Nat.pow_mul]
  rwa [List.length_map] at h

theorem testBit_ofDigits (raw : Bytes) (bit : Nat) :
    (Nat.ofDigits 256 (raw.map UInt8.toNat)).testBit bit = raw.hasBit bit := by
  induction raw generalizing bit with
  | nil => simp [Bytes.hasBit]
  | cons b raw ih =>
    rw [List.map_cons, Nat.ofDigits_cons, Nat.add_comm,
      Nat.testBit_two_pow_mul_add _ (show b.toNat < 2 ^ 8 from b.toNat_lt)]
    split
    · rename_i h
      rw [Bytes.hasBit, Nat.div_eq_of_lt h, Nat.mod_eq_of_lt h]
      rfl
    · rename_i h
      have hdiv : bit / 8 = (bit - 8) / 8 + 1 := by omega
      have hmod : bit % 8 = (bit - 8) % 8 := by omega
      rw [ih, Bytes.hasBit, Bytes.hasBit, hdiv, hmod, List.getElem?_cons_succ]

theorem testBit_ofBytes (raw : Bytes) (bit : Nat) :
    (ofBytes raw).value.testBit bit = raw.hasBit bit := by
  rw [value_ofBytes, testBit_ofDigits]

theorem value_ofBytes_eq_sum (raw : Bytes) :
    (ofBytes raw).value = (raw.mapIdx fun i b => b.toNat * 256 ^ i).sum := by
  rw [value_ofBytes, Nat.ofDigits_eq_sum_mapIdx, List.mapIdx_eq_zipIdx_map,
    List.mapIdx_eq_zipIdx_map, List.zipIdx_map, List.map_map]
  rfl

theorem pairwise_bitNames : bitNames.Pairwise fun a b => a.1 < b.1 := by
  decide

/-- The names are those of the set bits among the named ones, from low to high. -/
theorem names_ofBytes (raw : Bytes) :
    ∃ reported : List (Nat × String), (ofBytes raw).names = reported.map (·.2) ∧
      reported.Pairwise (fun a b => a.1 < b.1) ∧
      ∀ named, named ∈ reported ↔ named ∈ bitNames ∧ raw.hasBit named.1 = true := by
  refine ⟨_, rfl, pairwise_bitNames.filter _, fun named => ?_⟩
  rw [List.mem_filter, ← testBit_ofBytes]
  rfl

theorem ofBytes_append_zeros (raw : Bytes) (n : Nat) :
    ofBytes (raw ++ List.replicate n 0) = ofBytes raw := by
  have h : (ofBytes (raw ++ List.replicate n 0)).value = (ofBytes raw).value := by
    rw [value_ofBytes, value_ofBytes, List.map_append, List.map_replicate]
    exact Nat.ofDigits_append_replicate_zero _
  exact congrArg mk h

theorem ofBytes_inj {raw other : Bytes} (hlength : other.length = raw.length)
    (h : ofBytes other = ofBytes raw) : other = raw := by
  have hvalue : (ofBytes other).value = (ofBytes raw).value := congrArg value h
  rw [value_ofBytes, value_ofBytes] at hvalue
  have hdigits := Nat.ofDigits_inj_of_len_eq (by decide)
    (by rw [List.length_map, List.length_map, hlength]) (lt_of_mem_digits other)
    (lt_of_mem_digits raw) hvalue
  exact List.map_injective_iff.mpr (fun _ _ => UInt8.toNat_inj.mp) hdigits

/-- Every value below the bound of a number of bytes is packed from so many bytes. -/
theorem exists_ofBytes {length value : Nat} (h : value < 2 ^ (8 * length)) :
    ∃ raw : Bytes, raw.length = length ∧ ofBytes raw = ⟨value⟩ := by
  rw [Nat.pow_mul] at h
  have hback : ((Nat.digitsAppend 256 length value).map UInt8.ofNat).map UInt8.toNat =
      Nat.digitsAppend 256 length value := by
    rw [List.map_map]
    refine (List.map_congr_left fun digit hdigit => ?_).trans (List.map_id _)
    exact UInt8.toNat_ofNat_of_lt' (Nat.lt_of_mem_digitsAppend (by decide) length digit hdigit)
  refine ⟨(Nat.digitsAppend 256 length value).map UInt8.ofNat, ?_, congrArg mk ?_⟩
  · rw [List.length_map, Nat.length_digitsAppend (by decide) length h]
  · change (ofBytes _).value = value
    rw [value_ofBytes, hback, Nat.digitsAppend, Nat.ofDigits_append_replicate_zero,
      Nat.ofDigits_digits]

/-- The flags of a decoded condition come from its five bytes. -/
theorem flags_of_read {s t : Source} {condition : Condition}
    (h : Post.conditionLayout.read.run s = (.ok condition, t)) :
    condition.flags = ofBytes (s.left.slice 0 5) ∧ condition.flags.value < 2 ^ 40 := by
  obtain ⟨-, rfl, -⟩ := Layout.read_ok h
  have hlength : (s.left.slice 0 5).length ≤ 5 := List.length_take_le ..
  have hbound : 2 ^ (8 * (s.left.slice 0 5).length) ≤ 2 ^ 40 :=
    Nat.pow_le_pow_right (by decide) (by omega)
  exact ⟨rfl, (value_ofBytes_lt _).trans_le hbound⟩

/-- The value is the sum of the bytes, each by its power of 256, so each bit is the bit of its
byte, named or not, and the names are those of the set bits. Other bytes of the same number give
another value, and every value below the bound comes of so many bytes. Zero bytes behind the others
change nothing. -/
theorem ofBytes_packs (raw : Bytes) :
    (ofBytes raw).value = (raw.mapIdx fun i b => b.toNat * 256 ^ i).sum ∧
    (∀ bit, (ofBytes raw).value.testBit bit = raw.hasBit bit) ∧
    (∃ reported : List (Nat × String), (ofBytes raw).names = reported.map (·.2) ∧
      reported.Pairwise (fun a b => a.1 < b.1) ∧
      ∀ named, named ∈ reported ↔ named ∈ bitNames ∧ raw.hasBit named.1 = true) ∧
    (∀ other : Bytes, other.length = raw.length → ofBytes other = ofBytes raw → other = raw) ∧
    (∀ n, ofBytes (raw ++ List.replicate n 0) = ofBytes raw) ∧
    (ofBytes raw).value < 2 ^ (8 * raw.length) ∧
    (∀ value, value < 2 ^ (8 * raw.length) →
      ∃ other : Bytes, other.length = raw.length ∧ ofBytes other = ⟨value⟩) ∧
    ∀ s t condition, Post.conditionLayout.read.run s = (.ok condition, t) →
      condition.flags = ofBytes (s.left.slice 0 5) ∧ condition.flags.value < 2 ^ 40 :=
  ⟨value_ofBytes_eq_sum raw, testBit_ofBytes raw, names_ofBytes raw, fun _ => ofBytes_inj,
    ofBytes_append_zeros raw, value_ofBytes_lt raw, fun _ => exists_ofBytes,
    fun _ _ _ => flags_of_read⟩

/-- Five flags are set, each in its own byte but for two in the second one. -/
theorem ofBytes_packs_fiveFlags :
    ofBytes [0x08, 0x00, 0x80, 0x0C, 0x10] ≠ ofBytes [0x10, 0x0C, 0x80, 0x00, 0x08] ∧
    (∃ other : Bytes, other.length = 5 ∧ ofBytes other = ⟨2 ^ 40 - 1⟩) ∧
    ∃ condition t, Post.conditionLayout.read.run (.ofBytes
        [0x10, 0x0C, 0x80, 0x00, 0x08, 0, 0, 0, 0, 0, 3, 2, 1, 1]) = (.ok condition, t) ∧
      condition.flags = ofBytes [0x10, 0x0C, 0x80, 0x00, 0x08] ∧
      condition.flags.names = ["REFLECT", "UNTOUCHABLE", "FAST_FALL", "SHIELD", "FOLLOWER"] := by
  obtain ⟨-, -, -, hinj, -, -, hvalues, hwire⟩ := ofBytes_packs [0x10, 0x0C, 0x80, 0x00, 0x08]
  have hother : ofBytes [0x08, 0x00, 0x80, 0x0C, 0x10] ≠ ofBytes [0x10, 0x0C, 0x80, 0x00, 0x08] :=
    fun h => absurd (hinj [0x08, 0x00, 0x80, 0x0C, 0x10] rfl h) (by decide)
  have hread : Post.conditionLayout.read.run _ = _ := Layout.readUnder_of_size_le []
    (Source.inMemory_ofBytes [0x10, 0x0C, 0x80, 0x00, 0x08, 0, 0, 0, 0, 0, 3, 2, 1, 1]) (by decide)
  obtain ⟨hflags, -⟩ := hwire _ _ _ hread
  refine ⟨hother, hvalues _ (by decide), _, _, hread, hflags, ?_⟩
  rw [hflags]
  decide

end StateFlags

end Replay
