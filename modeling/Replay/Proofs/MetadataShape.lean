import Replay.Metadata.View
import Mathlib.Data.List.Nodup

/-!
Which entries of the metadata must be of which kind. Maps with fixed keys and maps with any keys
take turns from the outermost one inwards. The view checks the entries with a prescribed kind in
their order, each before those inside it, and reports the first that is of another kind.
-/

namespace Replay

deriving instance DecidableEq for Tree.Kind

namespace Metadata

namespace Place

def kind : Place → Tree.Kind
  | .startAt | .playedOn | .consoleNick | .netplay | .code => .text
  | .lastFrame | .frameCount => .number
  | .players | .player | .names | .characters => .map

/-- The place of an entry of the outermost map, or of the map at a place, if its key is known
there. -/
def below : Option Place → String → Option Place
  | none, "startAt" => some .startAt
  | none, "lastFrame" => some .lastFrame
  | none, "playedOn" => some .playedOn
  | none, "consoleNick" => some .consoleNick
  | none, "players" => some .players
  | some .players, _ => some .player
  | some .player, "names" => some .names
  | some .player, "characters" => some .characters
  | some .names, "netplay" => some .netplay
  | some .names, "code" => some .code
  | some .characters, _ => some .frameCount
  | _, _ => none

theorem known_of_below_none {key : String} {place : Place} (h : below none key = some place) :
    key = "startAt" ∧ place = .startAt ∨ key = "lastFrame" ∧ place = .lastFrame ∨
      key = "playedOn" ∧ place = .playedOn ∨ key = "consoleNick" ∧ place = .consoleNick ∨
      key = "players" ∧ place = .players := by
  unfold below at h
  split at h <;> simp_all

theorem known_of_below_player {key : String} {place : Place}
    (h : below (some .player) key = some place) :
    key = "names" ∧ place = .names ∨ key = "characters" ∧ place = .characters := by
  unfold below at h
  split at h <;> simp_all

theorem known_of_below_names {key : String} {place : Place}
    (h : below (some .names) key = some place) :
    key = "netplay" ∧ place = .netplay ∨ key = "code" ∧ place = .code := by
  unfold below at h
  split at h <;> simp_all

end Place

mutual

/-- The kind of the value at a place, and then those of the values inside it that have a place,
in the order of the entries. -/
def kinds (place : Place) : Tree → List (Place × Tree.Kind)
  | .number _ => [(place, .number)]
  | .text _ => [(place, .text)]
  | .map entries => (place, .map) :: kindsIn (some place) entries

def kindsIn (above : Option Place) : List (String × Tree) → List (Place × Tree.Kind)
  | [] => []
  | (key, tree) :: entries =>
    (match Place.below above key with
      | some place => kinds place tree
      | none => []) ++ kindsIn above entries

end

/-- A value is not of the kind that its place prescribes. -/
def Misfit (found : Place × Tree.Kind) : Prop :=
  found.2 ≠ found.1.kind

instance (found : Place × Tree.Kind) : Decidable (Misfit found) :=
  inferInstanceAs (Decidable (_ ≠ _))

def Fitting (found : List (Place × Tree.Kind)) : Prop :=
  ∀ x ∈ found, ¬ Misfit x

/-- The result, unless some value is not of its kind: then the first of these is reported. -/
def check {α : Type} (found : List (Place × Tree.Kind)) (a : α) : Except Cause α :=
  match found.find? (Misfit ·) with
  | none => .ok a
  | some (place, kind) => .error (.shape place kind)

section

variable {α β : Type} {found : List (Place × Tree.Kind)}

theorem check_cons_of_fits {place : Place} {kind : Tree.Kind} (h : kind = place.kind) (a : α) :
    check ((place, kind) :: found) a = check found a := by
  have hfits : ¬ Misfit (place, kind) := fun hmisfit => hmisfit h
  rw [check, check, List.find?_cons_of_neg (by simpa using hfits)]

theorem check_cons_of_misfit {place : Place} {kind : Tree.Kind} (h : kind ≠ place.kind) (a : α) :
    check ((place, kind) :: found) a = .error (.shape place kind) := by
  have hmisfit : Misfit (place, kind) := h
  rw [check, List.find?_cons_of_pos (by simpa using hmisfit)]

/-- A map is checked before what is inside it. -/
theorem map_bind_eq_check {place : Place} (hplace : place.kind = .map) {tree : Tree}
    {next : List (String × Tree) → Except Cause α} {a : α}
    (h : ∀ inner, tree = .map inner → next inner = check (kindsIn (some place) inner) a) :
    (Metadata.map place tree >>= next) = check (kinds place tree) a := by
  cases tree with
  | number n => exact (check_cons_of_misfit (by rw [hplace]; nofun) a).symm
  | text s => exact (check_cons_of_misfit (by rw [hplace]; nofun) a).symm
  | map inner =>
    rw [kinds, check_cons_of_fits hplace.symm]
    exact h inner rfl

/-- Checks made one after another are one check of all that they look at. -/
theorem check_bind (found more : List (Place × Tree.Kind)) (a : α) (f : α → β) :
    (check found a >>= fun b => check more (f b)) = check (found ++ more) (f a) := by
  rw [check, check, List.find?_append]
  cases found.find? (Misfit ·) <;> rfl

theorem check_map (found : List (Place × Tree.Kind)) (a : α) (f : α → β) :
    (check found a >>= fun b => .ok (f b)) = check found (f a) := by
  rw [check, check]
  cases found.find? (Misfit ·) <;> rfl

/-- The result matters only if every value is of its kind. -/
theorem check_congr {a b : α} (h : Fitting found → a = b) :
    check found a = check found b := by
  rw [check, check]
  cases hfind : found.find? (Misfit ·) with
  | none => rw [h (by simpa [Fitting] using hfind)]
  | some x => rfl

theorem check_eq_ok_iff {a b : α} :
    check found a = .ok b ↔ Fitting found ∧ a = b := by
  rw [check]
  cases hfind : found.find? (Misfit ·) with
  | none =>
    rw [List.find?_eq_none] at hfind
    simpa [Fitting] using fun _ => hfind
  | some x =>
    have hx := List.find?_some hfind
    have hmem := List.mem_of_find?_eq_some hfind
    simp only [reduceCtorEq, false_iff, not_and]
    exact fun h => absurd (of_decide_eq_true hx) (h x hmem)

theorem check_eq_error_iff {a : α} {cause : Cause} :
    check found a = .error cause ↔
      ∃ place kind, found.find? (Misfit ·) = some (place, kind) ∧ cause = .shape place kind := by
  rw [check]
  cases hfind : found.find? (Misfit ·) with
  | none => simp
  | some x =>
    obtain ⟨place, kind⟩ := x
    constructor
    · intro h
      cases h
      exact ⟨place, kind, rfl, rfl⟩
    · rintro ⟨_, _, h, rfl⟩
      cases h
      rfl

end

/-- What the check of a whole entry looks at. -/
def kindsAt (above : Option Place) (entry : String × Tree) : List (Place × Tree.Kind) :=
  match Place.below above entry.1 with
  | some place => kinds place entry.2
  | none => []

theorem kindsIn_eq (above : Option Place) (entries : List (String × Tree)) :
    kindsIn above entries = entries.flatMap (kindsAt above) := by
  induction entries with
  | nil => rfl
  | cons entry entries ih => rw [kindsIn, ih, List.flatMap_cons]; rfl

/-- A map is sound if all its entries with a place are. -/
theorem fitting_kindsIn_iff {above : Option Place} {entries : List (String × Tree)} :
    Fitting (kindsIn above entries) ↔ ∀ key tree, (key, tree) ∈ entries →
      ∀ place, Place.below above key = some place → Fitting (kinds place tree) := by
  rw [kindsIn_eq]
  constructor
  · intro h key tree hentry place hplace x hx
    refine h x (List.mem_flatMap.mpr ⟨(key, tree), hentry, ?_⟩)
    rw [kindsAt, hplace]
    exact hx
  · intro h x hx
    obtain ⟨⟨key, tree⟩, hentry, hx⟩ := List.mem_flatMap.mp hx
    rw [kindsAt] at hx
    split at hx
    · exact h key tree hentry _ ‹_› x hx
    · cases hx

section

variable {place : Place} {tree : Tree}

theorem fitting_text_iff (h : place.kind = .text) :
    Fitting (kinds place tree) ↔ ∃ s, tree = .text s := by
  cases tree <;> simp [kinds, Fitting, Misfit, h]

theorem fitting_number_iff (h : place.kind = .number) :
    Fitting (kinds place tree) ↔ ∃ n, tree = .number n := by
  cases tree <;> simp [kinds, Fitting, Misfit, h]

theorem fitting_map_iff (h : place.kind = .map) :
    Fitting (kinds place tree) ↔
      ∃ entries, tree = .map entries ∧ Fitting (kindsIn (some place) entries) := by
  cases tree <;> simp [kinds, Fitting, Misfit, h]

end

section

variable {α : Type} {found : String × Tree → List (Place × Tree.Kind)}

/-- Entries that are checked and then change a record one after another. -/
theorem foldlM_check {add : α → String × Tree → Except Cause α} {enter : α → String × Tree → α}
    {entries : List (String × Tree)}
    (h : ∀ entry ∈ entries, ∀ a, add a entry = check (found entry) (enter a entry)) (a : α) :
    entries.foldlM add a = check (entries.flatMap found) (entries.foldl enter a) := by
  induction entries generalizing a with
  | nil => rfl
  | cons entry entries ih =>
    obtain ⟨hentry, hrest⟩ := List.forall_mem_cons.mp h
    rw [List.foldlM_cons, hentry a, List.flatMap_cons, List.foldl_cons]
    simp only [ih hrest]
    exact check_bind _ _ _ fun b => entries.foldl enter b

/-- Entries that are checked and each give a value of their own. -/
theorem mapM_check {convert : String × Tree → Except Cause α}
    {value? : String × Tree → Option α} {entries : List (String × Tree)}
    (h : ∀ entry ∈ entries, ∃ a, convert entry = check (found entry) a ∧
      (Fitting (found entry) → value? entry = some a)) :
    entries.mapM convert = check (entries.flatMap found) (entries.filterMap value?) := by
  induction entries with
  | nil => rfl
  | cons entry entries ih =>
    obtain ⟨⟨a, hentry, hvalue⟩, hrest⟩ := List.forall_mem_cons.mp h
    rw [List.mapM_cons, hentry, List.flatMap_cons]
    simp only [ih hrest]
    calc check (found entry) a >>= (fun b =>
          check (entries.flatMap found) (entries.filterMap value?) >>= fun bs => .ok (b :: bs))
        = check (found entry) a >>= fun b =>
            check (entries.flatMap found) (b :: entries.filterMap value?) := by
          simp only [check_map]
      _ = check (found entry ++ entries.flatMap found) (a :: entries.filterMap value?) :=
          check_bind _ _ _ (· :: entries.filterMap value?)
      _ = check (found entry ++ entries.flatMap found) ((entry :: entries).filterMap value?) := by
          refine check_congr fun hfits => ?_
          rw [List.filterMap_cons_some (hvalue fun x hx => hfits x (List.mem_append_left _ hx))]

end

end Metadata

end Replay
