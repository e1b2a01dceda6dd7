import Replay.Proofs.MetadataView

/-!
Unknown keys of the metadata. Neither the view nor the error depends on what stands under them, on
any level.
-/

namespace Replay

open Metadata Entries

mutual

/-- The value at a place with only those entries inside it that have a place themselves. -/
def Tree.known (place : Place) : Tree → Tree
  | .number n => .number n
  | .text s => .text s
  | .map entries => .map (Metadata.knownIn (some place) entries)

def Metadata.knownIn (above : Option Place) : List (String × Tree) → List (String × Tree)
  | [] => []
  | (key, tree) :: entries =>
    match Place.below above key with
    | some place => (key, tree.known place) :: Metadata.knownIn above entries
    | none => Metadata.knownIn above entries

end

namespace Metadata

mutual

theorem kinds_known (place : Place) (tree : Tree) :
    kinds place (tree.known place) = kinds place tree := by
  cases tree with
  | number n => rfl
  | text s => rfl
  | map entries => rw [Tree.known, kinds, kinds, kindsIn_knownIn (some place) entries]

theorem kindsIn_knownIn (above : Option Place) (entries : List (String × Tree)) :
    kindsIn above (knownIn above entries) = kindsIn above entries := by
  cases entries with
  | nil => rfl
  | cons entry entries =>
    obtain ⟨key, tree⟩ := entry
    have hrest := kindsIn_knownIn above entries
    cases hplace : Place.below above key with
    | none => simp only [knownIn, kindsIn, hplace, hrest, List.nil_append]
    | some place =>
      have htree := kinds_known place tree
      simp only [knownIn, kindsIn, hplace, hrest, htree]

end

theorem lookup_knownIn {above : Option Place} {key : String} {place : Place}
    (h : Place.below above key = some place) (entries : List (String × Tree)) :
    (knownIn above entries).lookup key = (entries.lookup key).map (Tree.known place) := by
  induction entries with
  | nil => rfl
  | cons entry entries ih =>
    obtain ⟨other, tree⟩ := entry
    rw [knownIn, List.lookup_cons]
    by_cases hkey : key = other
    · subst hkey
      simp [h]
    · cases Place.below above other <;> simp [List.lookup_cons, beq_eq_false_iff_ne.mpr hkey, ih]

@[simp] theorem text?_known (place : Place) (tree : Tree) :
    (tree.known place).text? = tree.text? := by
  cases tree <;> rfl

@[simp] theorem number?_known (place : Place) (tree : Tree) :
    (tree.known place).number? = tree.number? := by
  cases tree <;> rfl

@[simp] theorem map?_known (place : Place) (tree : Tree) :
    (tree.known place).map? = tree.map?.map (knownIn (some place)) := by
  cases tree <;> rfl

section

variable {above : Option Place} {key : String} {place : Place}

theorem bind_lookup_knownIn {α : Type} {f : Tree → Option α}
    (h : Place.below above key = some place) (hf : ∀ tree, f (tree.known place) = f tree)
    (entries : List (String × Tree)) :
    ((knownIn above entries).lookup key).bind f = (entries.lookup key).bind f := by
  rw [lookup_knownIn h]
  cases entries.lookup key with
  | none => rfl
  | some tree => exact hf tree

theorem mapAt_knownIn (h : Place.below above key = some place) (entries : List (String × Tree)) :
    Tree.mapAt key (knownIn above entries) = knownIn (some place) (Tree.mapAt key entries) := by
  rw [Tree.mapAt, Tree.mapAt, lookup_knownIn h]
  cases entries.lookup key with
  | none => rfl
  | some tree => cases tree <;> rfl

theorem filterMapValues_knownIn {α : Type} {f : Tree → Option α}
    (h : ∀ key, Place.below above key = some place) (hf : ∀ tree, f (tree.known place) = f tree)
    (entries : List (String × Tree)) :
    filterMapValues f (knownIn above entries) = filterMapValues f entries := by
  induction entries with
  | nil => rfl
  | cons entry entries ih =>
    obtain ⟨key, tree⟩ := entry
    rw [filterMapValues] at ih
    simp only [filterMapValues, knownIn, h key, List.filterMap_cons, hf, ih]

end

end Metadata

theorem PlayerNames.view_knownIn (entries : List (String × Tree)) :
    view (knownIn (some .names) entries) = view entries := by
  rw [view, bind_lookup_knownIn rfl (text?_known .netplay),
    bind_lookup_knownIn rfl (text?_known .code)]
  rfl

theorem PlayerMetadata.view_knownIn (entries : List (String × Tree)) :
    view (knownIn (some .player) entries) = view entries := by
  have hnames : ((knownIn (some .player) entries).lookup "names").bind Tree.map? =
      ((entries.lookup "names").bind Tree.map?).map (knownIn (some .names)) := by
    rw [lookup_knownIn rfl]
    cases entries.lookup "names" with
    | none => rfl
    | some tree => exact map?_known _ tree
  rw [view, hnames, mapAt_knownIn rfl, counts, filterMapValues_knownIn (fun _ => rfl)
    (number?_known .frameCount), Option.map_map]
  exact congrArg (PlayerMetadata.mk · _) (congrArg (Option.map · _) (funext PlayerNames.view_knownIn))

namespace Metadata

theorem view_knownIn (entries : List (String × Tree)) :
    view (knownIn none entries) = view entries := by
  have hplayer : ∀ tree : Tree, (tree.known .player).map?.map PlayerMetadata.view =
      tree.map?.map PlayerMetadata.view := fun tree => by
    rw [map?_known, Option.map_map]
    exact congrArg (Option.map · _) (funext PlayerMetadata.view_knownIn)
  rw [view, bind_lookup_knownIn rfl (text?_known .startAt),
    bind_lookup_knownIn rfl (number?_known .lastFrame),
    bind_lookup_knownIn rfl (text?_known .playedOn),
    bind_lookup_knownIn rfl (text?_known .consoleNick), mapAt_knownIn rfl, playersIn,
    filterMapValues_knownIn (fun _ => rfl) hplayer]
  rfl

/-- Entries that agree in what stands under the known keys have one view, or one error. -/
theorem ofEntries_congr {entries others : List (String × Tree)}
    (h : (Tree.map entries).Distinct) (h' : (Tree.map others).Distinct)
    (heq : knownIn none others = knownIn none entries) : ofEntries others = ofEntries entries := by
  rw [ofEntries_eq h, ofEntries_eq h', ← kindsIn_knownIn none others, ← view_knownIn others, heq,
    kindsIn_knownIn, view_knownIn]

end Metadata

end Replay
