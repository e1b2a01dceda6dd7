import Replay.Proofs.MetadataParsing

/-!
How deep the reader of metadata goes. The reader of a map reads the maps in it, one level further
down, and refuses those that would lie too deep before it takes any byte of them. So the maps that
are being read at any moment are no more than the depth of the outermost one leaves room for,
whatever the data is, and every entry takes some of the data.
-/

namespace Replay

theorem IsMapBody.length_pos {bytes : Bytes} {entries : List (String × Tree)}
    (h : IsMapBody bytes entries) : 0 < bytes.length := by
  cases h with
  | close => simp
  | entry => simp

theorem IsValue.two_le_length {bytes : Bytes} {tree : Tree} (h : IsValue bytes tree) :
    2 ≤ bytes.length := by
  cases h with
  | text => simp
  | number width => simp [width]
  | map written =>
    have := written.length_pos
    simp only [List.length_cons]
    omega

namespace Ubjson

open Reader

/-- The causes for which metadata is refused in one place: too few bytes, a text that is no UTF-8,
or a byte that no value, key or length starts with. -/
inductive IsLocal : Cause → Prop where
  | block (wanted : Int) (got : Nat) : IsLocal (.shortBlock wanted got)
  | field (path : List String) (wanted got : Nat) : IsLocal (.shortField path wanted got)
  | text (raw : Bytes) : IsLocal (.text raw)
  | stringLengthMarker (got : Nat) : IsLocal (.stringLengthMarker got)
  | keyMarker (got : Nat) : IsLocal (.keyMarker got)
  | valueMarker (got : Nat) : IsLocal (.valueMarker got)

/-- The classes of all failures of metadata in memory. -/
def errorClasses : List ErrorClass :=
  [.truncatedInput, .invalidText, .malformedMetadata, .unsupportedValue]

/-- The causes for which metadata is refused: one in a place, or that maps lie too deep. -/
def IsOwn (cause : Cause) : Prop :=
  IsLocal cause ∨ cause = .nesting maxDepth

theorem IsOwn.class_mem {cause : Cause} (h : IsOwn cause) : cause.errorClass ∈ errorClasses := by
  rcases h with h | rfl
  · cases h <;> simp [Cause.errorClass, errorClasses]
  · simp [Cause.errorClass, errorClasses]

theorem failsFor_u8 : Layout.u8.read.FailsFor IsLocal :=
  .read _ .field

theorem failsFor_readText : readText.FailsFor IsLocal := by
  refine failsFor_u8.bind fun length => (FailsFor.block length (.block length)).bind fun raw => ?_
  split
  · exact .pure _
  · exact .reject (.text raw)

theorem failsFor_readKey : readKey.FailsFor IsLocal := by
  refine failsFor_u8.bind fun marker => ?_
  split
  · exact failsFor_readText.map some
  · split
    · exact .pure none
    · exact .reject (.keyMarker marker)

theorem failsFor_readValueWith {P : Cause → Prop} (hP : ∀ cause, IsLocal cause → P cause)
    {nested : Reader Tree} (h : nested.FailsFor P) : (readValueWith nested).FailsFor P := by
  refine (failsFor_u8.mono hP).bind fun marker => ?_
  split
  · refine (failsFor_u8.mono hP).bind fun lengthMarker => ?_
    split
    · exact (failsFor_readText.mono hP).map Tree.text
    · exact .reject (hP _ (.stringLengthMarker lengthMarker))
  · split
    · exact FailsFor.map (.read _ fun path wanted got => hP _ (.field path wanted got)) Tree.number
    · split
      · exact h
      · exact .reject (hP _ (.valueMarker marker))

theorem failsFor_readEntry {value : Reader Tree} (h : value.FailsFor IsOwn)
    (entries : List (String × Tree)) : (readEntry value entries).FailsFor IsOwn := by
  refine (failsFor_readKey.mono fun _ => .inl).bind fun key => ?_
  cases key with
  | none => exact .pure _
  | some key => exact h.bind fun tree => .pure _

theorem failsFor_readTree (levels : Nat) : (readTree levels).FailsFor IsOwn := by
  induction levels with
  | zero => exact failsFor_readValueWith (fun _ => .inl) (.reject (.inr rfl))
  | succ levels ih =>
    exact failsFor_readValueWith (fun _ => .inl)
      (FailsFor.map (.rounds _ (failsFor_readEntry ih) []) Tree.map)

theorem failsFor_readValue (depth : Int) : (readValue depth).FailsFor IsOwn :=
  failsFor_readTree _

theorem failsFor_readMap (depth : Int) : (readMap depth).FailsFor IsOwn := by
  unfold readMap
  split
  · exact .reject (.inr rfl)
  · exact .rounds _ (failsFor_readEntry (failsFor_readTree _)) []

/-- A map in a value is read as any other map, one level further down. -/
theorem readValue_eq (depth : Int) :
    readValue depth = readValueWith (Tree.map <$> readMap (depth + 1)) := by
  rw [readValue, readMap]
  split
  · have hnone : levelsBelow depth = 0 := by
      rw [levelsBelow]
      omega
    rw [hnone]
    rfl
  · have hmore : levelsBelow depth = levelsBelow (depth + 1) + 1 := by
      rw [levelsBelow, levelsBelow]
      omega
    rw [hmore]
    rfl

theorem readMap_of_lt {depth : Int} (h : maxDepth < depth) :
    readMap depth = .reject (.nesting maxDepth) :=
  if_pos h

theorem readMap_of_le {depth : Int} (h : depth ≤ maxDepth) :
    readMap depth = ReadsWithin.loop (readValue depth) [] :=
  if_neg (Int.not_lt.mpr h)

/-- A value behind an opening brace is the map there. -/
theorem run_readValue_of_brace {depth : Int} {s t : Source}
    (h : Layout.u8.read.run s = (.ok 0x7B, t)) :
    (readValue depth).run s = (Tree.map <$> readMap (depth + 1)).run t := by
  rw [readValue_eq, readValueWith, Decoder.run_bind_of_ok h]
  rfl

/-- The loop over the entries of a map comes from `s` to `t` by so many complete entries, with the
entries that it has before and after them. -/
inductive Completes (depth : Int) :
    Nat → List (String × Tree) → Source → List (String × Tree) → Source → Prop where
  | none (all : List (String × Tree)) (s : Source) : Completes depth 0 all s all s
  | entry {n : Nat} {all next last : List (String × Tree)} {s t u : Source}
    (first : (readEntry (readValue depth) all).run s = (.ok (.inl next), t))
    (rest : Completes depth n next t last u) : Completes depth (n + 1) all s last u

/-- A use of the reader of maps, at a depth and on what a source has left. -/
structure MapCall where
  depth : Int
  source : Source

namespace MapCall

def run (call : MapCall) : Except Failure (List (String × Tree)) × Source :=
  (readMap call.depth).run call.source

/-- Reading the first map uses the reader for the second one: behind some complete entries there
are a key and an opening brace, and the second map starts right behind the brace. -/
inductive Opens : MapCall → MapCall → Prop where
  | behind {depth : Int} {n : Nat} {all : List (String × Tree)} {key : String} {s t u v : Source}
    (accepted : depth ≤ maxDepth) (entries : Completes depth n [] s all t)
    (named : readKey.run t = (.ok (some key), u))
    (brace : Layout.u8.read.run u = (.ok 0x7B, v)) : Opens ⟨depth, s⟩ ⟨depth + 1, v⟩

/-- So many uses of the reader are nested in one another, from the outer one to the inner one. -/
inductive Nests : MapCall → Nat → MapCall → Prop where
  | self (call : MapCall) : Nests call 1 call
  | inside {outer next inner : MapCall} {n : Nat} (opens : outer.Opens next)
    (rest : Nests next n inner) : Nests outer (n + 1) inner

end MapCall

/-- The shortest entry has an empty key and an empty map for its value. -/
theorem length_of_readEntry {depth : Int} {all next : List (String × Tree)} {s t : Source}
    (h : (readEntry (readValue depth) all).run s = (.ok (.inl next), t)) :
    t.left.length + 4 ≤ s.left.length := by
  have within := readsWithin_readTree (levelsBelow depth)
  obtain ⟨bytes, hleft, -, hreads⟩ := (composed_readEntry within.composed all).framed _ _ _ h
  rcases (reads_entry_iff within.composed).mp hreads with
    ⟨-, hend⟩ | ⟨name, ys, key, tree, rfl, ⟨length, raw, rfl, -⟩, hvalue, -⟩
  · cases hend
  · obtain ⟨_, hvalue, -⟩ := within.reads_iff.mp hvalue
    have := hvalue.two_le_length
    rw [hleft]
    simp only [List.length_append, List.length_cons]
    omega

namespace Completes

variable {depth : Int} {n : Nat} {all last : List (String × Tree)} {s t : Source}

theorem length_le (h : Completes depth n all s last t) :
    t.left.length + 4 * n ≤ s.left.length := by
  induction h with
  | none => simp
  | entry first _ ih =>
    have := length_of_readEntry first
    omega

/-- The loop goes on from where the complete entries have brought it. -/
theorem run_loop (h : Completes depth n all s last t) :
    (ReadsWithin.loop (readValue depth) all).run s =
      (ReadsWithin.loop (readValue depth) last).run t := by
  induction h with
  | none => rfl
  | entry first _ ih => rw [Decoder.run_rounds, first, ← ih]

theorem concat {next : List (String × Tree)} {u : Source} (h : Completes depth n all s last t)
    (hlast : (readEntry (readValue depth) last).run t = (.ok (.inl next), u)) :
    Completes depth (n + 1) all s next u := by
  induction h with
  | none => exact .entry hlast (.none _ _)
  | entry first _ ih => exact .entry first (ih hlast)

end Completes

namespace MapCall

variable {outer inner : MapCall} {e : Failure} {t : Source} {n : Nat}

/-- When the inner map fails, so does the one around it, where the inner one has come to. -/
theorem Opens.run_error (h : outer.Opens inner) (he : inner.run = (.error e, t)) :
    outer.run = (.error e, t) := by
  cases h with
  | @behind depth _ _ _ _ _ _ v accepted entries named brace =>
    have hnested : (Tree.map <$> readMap (depth + 1)).run v = (.error e, t) := by
      rw [map_eq_pure_bind, Decoder.run_bind,
        show (readMap (depth + 1)).run v = (.error e, t) from he]
    rw [run, readMap_of_le accepted, entries.run_loop, Decoder.run_rounds, readEntry,
      Decoder.run_bind_of_ok named, Decoder.run_bind, run_readValue_of_brace brace, hnested]

theorem Nests.run_error (h : outer.Nests n inner) (he : inner.run = (.error e, t)) :
    outer.run = (.error e, t) := by
  induction h with
  | self => exact he
  | inside opens _ ih => exact opens.run_error (ih he)

/-- Maps that are nested lie one level below another, and only the innermost one may be refused. -/
theorem Nests.depth_eq (h : outer.Nests n inner) :
    inner.depth + 1 = outer.depth + n ∧ (n = 1 ∨ outer.depth + n ≤ maxDepth + 2) := by
  induction h with
  | self => omega
  | inside opens rest ih =>
    cases opens with
    | behind accepted =>
      dsimp only at ih ⊢
      omega

/-- A brace stands right in front of every map but the outermost one. -/
theorem Opens.brace (h : outer.Opens inner) :
    ∃ s : Source, s.left = 0x7B :: inner.source.left ∧ inner.source = s.skip 1 := by
  cases h with
  | behind _ _ _ brace =>
    obtain ⟨bytes, hleft, hskip, hreads⟩ := (Composed.read Layout.u8).framed _ _ _ brace
    obtain ⟨byte, rfl, hbyte⟩ := Layout.reads_u8_iff.mp hreads
    obtain rfl : byte = 0x7B := UInt8.toNat.inj hbyte.symm
    exact ⟨_, hleft, hskip⟩

/-- Only a map that lies too deep is refused for that. -/
theorem not_fails_nesting {α : Type} {reader : Reader α} (h : reader.FailsFor IsLocal) {s t : Source}
    (hs : s.InMemory) : reader.run s ≠ (.error (.ofCause (.nesting maxDepth)), t) := by
  intro hr
  obtain ⟨cause, he, hlocal⟩ := h s hs _ t hr
  cases he
  cases hlocal

theorem brace_of_nesting {nested : Reader Tree} {s t : Source} (hs : s.InMemory)
    (h : (readValueWith nested).run s = (.error (.ofCause (.nesting maxDepth)), t)) :
    ∃ u, Layout.u8.read.run s = (.ok 0x7B, u) ∧
      nested.run u = (.error (.ofCause (.nesting maxDepth)), t) := by
  rcases hm : Layout.u8.read.run s with ⟨f | marker, u⟩
  · rw [readValueWith, Decoder.run_bind, hm] at h
    cases h
    exact absurd hm (not_fails_nesting failsFor_u8 hs)
  · by_cases hbrace : marker = 0x7B
    · subst hbrace
      rw [readValueWith, Decoder.run_bind_of_ok hm] at h
      exact ⟨u, rfl, h⟩
    · -- Without a brace the reader of nested maps does not matter, so it may as well be local.
      have hsame : (readValueWith nested).run s =
          (readValueWith (.reject (.valueMarker 0))).run s := by
        rw [readValueWith, readValueWith, Decoder.run_bind_of_ok hm, Decoder.run_bind_of_ok hm,
          if_neg hbrace, if_neg hbrace]
      have hlocal : (readValueWith (.reject (.valueMarker 0))).FailsFor IsLocal :=
        failsFor_readValueWith (fun _ => id) (.reject (.valueMarker 0))
      exact absurd (hsame.symm.trans h) (not_fails_nesting hlocal hs)

/-- Behind complete entries, a map that is refused for its depth has come to a brace in an entry. -/
theorem opens_of_nesting {depth : Int} {s t : Source} (hs : s.InMemory) (hle : depth ≤ maxDepth)
    (h : (⟨depth, s⟩ : MapCall).run = (.error (.ofCause (.nesting maxDepth)), t)) :
    ∃ v : Source, v.InMemory ∧ (⟨depth, s⟩ : MapCall).Opens ⟨depth + 1, v⟩ ∧
      (⟨depth + 1, v⟩ : MapCall).run = (.error (.ofCause (.nesting maxDepth)), t) := by
  rw [run, readMap_of_le hle] at h
  let motive : List (String × Tree) → Source → Prop := fun all u =>
    u.InMemory ∧ ∃ n, Completes depth n [] s all u
  have step : ∀ all u next v, motive all u →
      (readEntry (readValue depth) all).run u = (.ok (.inl next), v) → motive next v :=
    fun all u next v ⟨hu, n, hn⟩ hnext => ⟨hu.run hnext, n + 1, hn.concat hnext⟩
  obtain ⟨all, u, ⟨hu, n, hn⟩, hlast⟩ :=
    Decoder.rounds_last (ReadsWithin.advances_readEntry _) step ⟨hs, 0, .none _ _⟩
  rcases hlast with ⟨_, _, -, hok⟩ | ⟨e, v, hround, herror⟩
  · rw [h] at hok
    cases hok
  · rw [h] at herror
    cases herror
    rcases Decoder.run_bind_eq_error hround with hkey | ⟨_ | key, w, hkey, hrest⟩
    · exact absurd hkey (not_fails_nesting failsFor_readKey hu)
    · cases hrest
    · rcases Decoder.run_bind_eq_error hrest with hvalue | ⟨_, _, -, hpure⟩
      · rw [readValue_eq] at hvalue
        obtain ⟨x, hbrace, hmap⟩ := brace_of_nesting (hu.run hkey) hvalue
        refine ⟨x, (hu.run hkey).run hbrace, .behind hle hn hkey hbrace, ?_⟩
        rw [map_eq_pure_bind] at hmap
        rcases Decoder.run_bind_eq_error hmap with hmap | ⟨_, _, -, hpure⟩
        · exact hmap
        · cases hpure
      · cases hpure

/-- A map is refused for its depth only if one that lies too deep is nested in it. -/
theorem nests_of_nesting {call : MapCall} {t : Source} (hs : call.source.InMemory)
    (h : call.run = (.error (.ofCause (.nesting maxDepth)), t)) :
    ∃ n inner, call.Nests n inner ∧ maxDepth < inner.depth ∧ inner.source = t := by
  -- The induction is on how many levels are left.
  induction hn : (maxDepth + 1 - call.depth).toNat generalizing call with
  | zero =>
    have hlt : maxDepth < call.depth := by omega
    rw [run, readMap_of_lt hlt] at h
    cases h
    exact ⟨1, call, .self call, hlt, rfl⟩
  | succ levels ih =>
    obtain ⟨depth, s⟩ := call
    dsimp only at hn hs
    obtain ⟨v, hv, hopens, hrun⟩ := opens_of_nesting hs (by omega) h
    obtain ⟨n, inner, hnests, hdeep, hsource⟩ := ih hv hrun (by dsimp only; omega)
    exact ⟨n + 1, inner, .inside hopens hnests, hdeep, hsource⟩

/-- What holds of the maps that are nested in one another when reading one of them. -/
structure Bounded (outer : MapCall) : Prop where
  /-- They are few, the outermost one and one that is refused included. -/
  few : ∀ n inner, outer.Nests n inner → (n : Int) ≤ max 0 (64 - outer.depth) + 2
  /-- Each but the outermost one starts right behind an opening brace. -/
  brace : ∀ n inner, outer.Nests n inner → n ≠ 1 →
    ∃ s : Source, s.left = 0x7B :: inner.source.left ∧ inner.source = s.skip 1
  /-- One that lies too deep is refused where it starts, and with it all that are around it. -/
  refused : ∀ n inner, outer.Nests n inner → 64 < inner.depth →
    inner.run = (.error (.ofCause (.nesting 64)), inner.source) ∧
      outer.run = (.error (.ofCause (.nesting 64)), inner.source)
  /-- Nothing else is refused for its depth. -/
  tooDeep : ∀ t, outer.run = (.error (.ofCause (.nesting 64)), t) →
    ∃ n inner, outer.Nests n inner ∧ 64 < inner.depth ∧ inner.source = t

theorem Nests.brace (h : outer.Nests n inner) (hn : n ≠ 1) :
    ∃ s : Source, s.left = 0x7B :: inner.source.left ∧ inner.source = s.skip 1 := by
  induction h with
  | self => exact absurd rfl hn
  | @inside outer next inner n opens rest ih =>
    by_cases h1 : n = 1
    · subst h1
      cases rest with
      | self => exact opens.brace
      | inside _ rest => cases rest
    · exact ih h1

theorem bounded {outer : MapCall} (hs : outer.source.InMemory) : outer.Bounded where
  few n inner h := by
    have := h.depth_eq.2
    rw [maxDepth] at this
    omega
  brace n inner h := h.brace
  refused n inner h hdeep := by
    have hrun : inner.run = (.error (.ofCause (.nesting 64)), inner.source) := by
      rw [run, readMap_of_lt hdeep]
      rfl
    exact ⟨hrun, h.run_error hrun⟩
  tooDeep t h := nests_of_nesting hs h

end MapCall

/-- The reading ends with a result, or for a cause of one of the classes of metadata. -/
def Ends {α : Type} (result : Except Failure α) : Prop :=
  (∃ a, result = .ok a) ∨
    ∃ cause, result = .error (.ofCause cause) ∧ cause.errorClass ∈ errorClasses

theorem ends_of_failsFor {α : Type} {reader : Reader α} (h : reader.FailsFor IsOwn) (data : Bytes) :
    Ends (reader.onBytes data) := by
  rcases hr : reader.run (.ofBytes data) with ⟨e | a, t⟩
  · obtain ⟨cause, rfl, hown⟩ := h _ (Source.inMemory_ofBytes data) e t hr
    exact .inr ⟨cause, congrArg Prod.fst hr, hown.class_mem⟩
  · exact .inl ⟨a, congrArg Prod.fst hr⟩

/-- Bounded nesting. At whatever depth it starts and on whatever data, reading a map or a value ends
with a result or with a failure of one of four classes. Every complete entry of a map takes at least
four bytes. The maps that are nested in one another at a time are no more than the depth leaves room
for, which from depth zero on are 66. One that lies too deep is refused right behind its opening
brace, whatever follows. A value that is a map is read as that map, one level further down. -/
theorem readMap_nests (depth : Int) (data : Bytes) :
    Ends ((readMap depth).onBytes data) ∧ Ends ((readValue depth).onBytes data) ∧
    (∀ n all s next t, Completes depth n all s next t → t.left.length + 4 * n ≤ s.left.length) ∧
    (⟨depth, .ofBytes data⟩ : MapCall).Bounded ∧
    (0 ≤ depth → ∀ n inner, (⟨depth, .ofBytes data⟩ : MapCall).Nests n inner → n ≤ 66) ∧
    ∀ s, Layout.u8.read.run (.ofBytes data) = (.ok 0x7B, s) →
      (⟨depth + 1, s⟩ : MapCall).Bounded ∧
        (readValue depth).run (.ofBytes data) =
          ((⟨depth + 1, s⟩ : MapCall).run.1.map Tree.map, (⟨depth + 1, s⟩ : MapCall).run.2) := by
  have hmemory := Source.inMemory_ofBytes data
  have hbounded : (⟨depth, .ofBytes data⟩ : MapCall).Bounded := MapCall.bounded hmemory
  refine ⟨ends_of_failsFor (failsFor_readMap depth) data,
    ends_of_failsFor (failsFor_readValue depth) data, fun _ _ _ _ _ => Completes.length_le,
    hbounded, ?_, ?_⟩
  · intro hdepth n inner hnests
    have := hbounded.few n inner hnests
    dsimp only at this
    omega
  · intro s hbrace
    refine ⟨MapCall.bounded (hmemory.run hbrace), ?_⟩
    rw [run_readValue_of_brace hbrace, map_eq_pure_bind, Decoder.run_bind, MapCall.run]
    rcases (readMap (depth + 1)).run s with ⟨_ | _, _⟩ <;> rfl

/-- A map at the limit, whose first entry has an empty key and a map for its value. -/
theorem readMap_nests_at_limit :
    (⟨64, .ofBytes [0x55, 0x00, 0x7B, 0x55]⟩ : MapCall).Nests 2
      ⟨65, (Source.ofBytes [0x55, 0x00, 0x7B, 0x55]).skip 3⟩ ∧
    (⟨64, .ofBytes [0x55, 0x00, 0x7B, 0x55]⟩ : MapCall).run =
      (.error (.ofCause (.nesting 64)), (Source.ofBytes [0x55, 0x00, 0x7B, 0x55]).skip 3) ∧
    2 ≤ 66 := by
  have nests : (⟨64, .ofBytes [0x55, 0x00, 0x7B, 0x55]⟩ : MapCall).Nests 2
      ⟨65, (Source.ofBytes [0x55, 0x00, 0x7B, 0x55]).skip 3⟩ :=
    .inside (.behind (by decide) (.none [] _) rfl rfl) (.self _)
  obtain ⟨-, -, -, hbounded, hfew, -⟩ := readMap_nests 64 [0x55, 0x00, 0x7B, 0x55]
  exact ⟨nests, (hbounded.refused 2 _ nests (by decide)).2, hfew (by decide) 2 _ nests⟩

end Ubjson

end Replay
