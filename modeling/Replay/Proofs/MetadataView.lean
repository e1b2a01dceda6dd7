import Replay.Proofs.MetadataGrammar
import Replay.Proofs.MetadataShape

/-!
What the view of the metadata comes to. If every value with a prescribed kind is of that kind, each
field holds what stands under its key and nothing where the key is absent.
-/

namespace Replay

namespace Entries

variable {κ α β : Type}

/-- The entries for whose values there is something, each with what there is. -/
def filterMapValues (f : α → Option β) (entries : List (κ × α)) : List (κ × β) :=
  entries.filterMap fun (key, value) => (f value).map (key, ·)

variable [BEq κ] [LawfulBEq κ]

theorem lookup_of_nodup_cons {key : κ} {value : α} {entries : List (κ × α)}
    (h : (((key, value) :: entries).map (·.1)).Nodup) : entries.lookup key = none := by
  rw [List.map_cons, List.nodup_cons] at h
  rw [List.lookup_eq_none_iff]
  exact fun entry hentry => bne_iff_ne.mpr fun heq =>
    h.1 (heq ▸ List.mem_map_of_mem (f := (·.1)) hentry)

theorem lookup_filterMapValues (f : α → Option β) {entries : List (κ × α)}
    (h : (entries.map (·.1)).Nodup) (k : κ) :
    (filterMapValues f entries).lookup k = (entries.lookup k).bind f := by
  induction entries with
  | nil => rfl
  | cons entry entries ih =>
    obtain ⟨key, value⟩ := entry
    have hnone := lookup_of_nodup_cons h
    have ih := ih (List.nodup_cons.mp h).2
    rw [filterMapValues] at ih ⊢
    rw [List.lookup_cons]
    cases hvalue : f value with
    | none =>
      rw [List.filterMap_cons_none (by simp [hvalue]), ih]
      by_cases hk : k = key
      · subst hk
        simp [hnone, hvalue]
      · simp [beq_eq_false_iff_ne.mpr hk]
    | some b =>
      rw [List.filterMap_cons_some (by simp [hvalue]; rfl), List.lookup_cons, ih]
      by_cases hk : k = key
      · subst hk
        simp [hvalue]
      · simp [beq_eq_false_iff_ne.mpr hk]

/-- A field that the entries with its own key set holds what stands under the key. -/
theorem foldl_field {σ γ : Type} {enter : σ → κ × α → σ} (field : σ → γ) {k : κ} {g : α → γ}
    (set : ∀ s value, field (enter s (k, value)) = g value)
    (keep : ∀ s key value, key ≠ k → field (enter s (key, value)) = field s)
    {entries : List (κ × α)} (h : (entries.map (·.1)).Nodup) (s : σ) :
    field (entries.foldl enter s) = ((entries.lookup k).map g).getD (field s) := by
  induction entries generalizing s with
  | nil => rfl
  | cons entry entries ih =>
    obtain ⟨key, value⟩ := entry
    rw [List.foldl_cons, ih (List.nodup_cons.mp h).2, List.lookup_cons]
    by_cases hk : key = k
    · subst hk
      simp [lookup_of_nodup_cons h, set]
    · simp [beq_eq_false_iff_ne.mpr (Ne.symm hk), keep s key value hk]

end Entries

theorem getD_map_none {α β : Type} (o : Option α) (g : α → Option β) :
    (o.map g).getD none = o.bind g := by
  cases o <;> rfl

namespace Tree

def text? : Tree → Option String
  | .text s => some s
  | _ => none

def number? : Tree → Option Int
  | .number n => some n
  | _ => none

def map? : Tree → Option (List (String × Tree))
  | .map entries => some entries
  | _ => none

theorem Distinct.entry {entries : List (String × Tree)} (h : (Tree.map entries).Distinct)
    {entry : String × Tree} (hentry : entry ∈ entries) : entry.2.Distinct := by
  have hvalues := h.2
  clear h
  induction entries with
  | nil => cases hentry
  | cons first entries ih =>
    obtain ⟨hfirst, hrest⟩ := hvalues
    rcases List.mem_cons.mp hentry with rfl | hentry
    · exact hfirst
    · exact ih hentry hrest

theorem Distinct.lookup {entries : List (String × Tree)} (h : (Tree.map entries).Distinct)
    {key : String} {tree : Tree} (hlookup : entries.lookup key = some tree) : tree.Distinct := by
  obtain ⟨before, after, rfl, -⟩ := List.lookup_eq_some_iff.mp hlookup
  exact h.entry (List.mem_append_right before List.mem_cons_self)

/-- The entries of the map under a key, none if there is no map. -/
def mapAt (key : String) (entries : List (String × Tree)) : List (String × Tree) :=
  ((entries.lookup key).bind map?).getD []

end Tree

open Metadata Entries

namespace PlayerNames

/-- The names of the entries. -/
def view (entries : List (String × Tree)) : PlayerNames where
  netplay := (entries.lookup "netplay").bind Tree.text?
  code := (entries.lookup "code").bind Tree.text?

/-- What an entry changes if its value is of its kind. -/
def enter (names : PlayerNames) : String × Tree → PlayerNames
  | ("netplay", tree) => { names with netplay := tree.text? }
  | ("code", tree) => { names with code := tree.text? }
  | _ => names

theorem add_eq (names : PlayerNames) (entry : String × Tree) :
    add names entry = check (kindsAt (some .names) entry) (enter names entry) := by
  unfold add
  split
  · cases ‹Tree› <;> rfl
  · cases ‹Tree› <;> rfl
  · rename_i hnetplay hcode
    obtain ⟨key, tree⟩ := entry
    have hn : key ≠ "netplay" := fun h => hnetplay tree (by rw [h])
    have hc : key ≠ "code" := fun h => hcode tree (by rw [h])
    have hkinds : kindsAt (some .names) (key, tree) = [] := by simp [kindsAt, Place.below, hn, hc]
    have henter : enter names (key, tree) = names := by simp [enter]
    rw [hkinds, henter]
    rfl

theorem foldl_enter {entries : List (String × Tree)} (h : (entries.map (·.1)).Nodup) :
    entries.foldl enter {} = view entries := by
  have hnetplay : (entries.foldl enter {}).netplay = _ :=
    foldl_field (k := "netplay") (g := Tree.text?) PlayerNames.netplay (fun _ _ => rfl)
      (fun names key tree hk => by unfold enter; split <;> simp_all) h {}
  have hcode : (entries.foldl enter {}).code = _ :=
    foldl_field (k := "code") (g := Tree.text?) PlayerNames.code (fun _ _ => rfl)
      (fun names key tree hk => by unfold enter; split <;> simp_all) h {}
  calc entries.foldl enter {}
      = ⟨(entries.foldl enter {}).netplay, (entries.foldl enter {}).code⟩ := rfl
    _ = view entries := by
        rw [hnetplay, hcode, getD_map_none, getD_map_none]
        rfl

theorem ofEntries_eq {entries : List (String × Tree)} (h : (entries.map (·.1)).Nodup) :
    ofEntries entries = check (kindsIn (some .names) entries) (view entries) := by
  rw [ofEntries, foldlM_check fun entry _ names => add_eq names entry, ← kindsIn_eq,
    foldl_enter h]

end PlayerNames

namespace PlayerMetadata

/-- The numbers of frames in a map of them. -/
def counts (entries : List (String × Tree)) : List (String × Int) :=
  filterMapValues Tree.number? entries

/-- What the entries say of a player. -/
def view (entries : List (String × Tree)) : PlayerMetadata where
  names := ((entries.lookup "names").bind Tree.map?).map PlayerNames.view
  characters := counts (Tree.mapAt "characters" entries)

theorem frameCounts_eq (entries : List (String × Tree)) :
    frameCounts entries = check (kindsIn (some .characters) entries) (counts entries) := by
  rw [frameCounts, kindsIn_eq]
  refine mapM_check fun entry _ => ⟨(entry.1, entry.2.number?.getD 0), ?_, fun hfits => ?_⟩
  · obtain ⟨key, tree⟩ := entry
    cases tree <;> rfl
  · obtain ⟨key, tree⟩ := entry
    cases tree with
    | number n => rfl
    | text s => exact absurd (by decide) (hfits (.frameCount, .text) List.mem_cons_self)
    | map inner => exact absurd (by decide) (hfits (.frameCount, .map) List.mem_cons_self)

/-- What an entry changes if its value is of its kind. -/
def enter (player : PlayerMetadata) : String × Tree → PlayerMetadata
  | ("names", tree) => { player with names := tree.map?.map PlayerNames.view }
  | ("characters", tree) => { player with characters := counts (tree.map?.getD []) }
  | _ => player

theorem add_eq (player : PlayerMetadata) {entry : String × Tree} (h : entry.2.Distinct) :
    add player entry = check (kindsAt (some .player) entry) (enter player entry) := by
  unfold add
  split
  · refine map_bind_eq_check rfl fun inner hinner => ?_
    subst hinner
    rw [PlayerNames.ofEntries_eq h.1]
    exact check_map _ _ fun names => { player with names := some names }
  · refine map_bind_eq_check rfl fun inner hinner => ?_
    subst hinner
    rw [frameCounts_eq]
    exact check_map _ _ fun characters => { player with characters }
  · rename_i hnames hcharacters
    obtain ⟨key, tree⟩ := entry
    have hn : key ≠ "names" := fun h => hnames tree (by rw [h])
    have hc : key ≠ "characters" := fun h => hcharacters tree (by rw [h])
    have hkinds : kindsAt (some .player) (key, tree) = [] := by simp [kindsAt, Place.below, hn, hc]
    have henter : enter player (key, tree) = player := by simp [enter]
    rw [hkinds, henter]
    rfl

theorem foldl_enter {entries : List (String × Tree)} (h : (entries.map (·.1)).Nodup) :
    entries.foldl enter {} = view entries := by
  have hnames : (entries.foldl enter {}).names = _ :=
    foldl_field (k := "names") (g := fun tree => tree.map?.map PlayerNames.view)
      PlayerMetadata.names (fun _ _ => rfl)
      (fun player key tree hk => by unfold enter; split <;> simp_all) h {}
  have hcharacters : (entries.foldl enter {}).characters = _ :=
    foldl_field (k := "characters") (g := fun tree => counts (tree.map?.getD []))
      PlayerMetadata.characters (fun _ _ => rfl)
      (fun player key tree hk => by unfold enter; split <;> simp_all) h {}
  calc entries.foldl enter {}
      = ⟨(entries.foldl enter {}).names, (entries.foldl enter {}).characters⟩ := rfl
    _ = view entries := by
        rw [hnames, hcharacters, getD_map_none, view, Tree.mapAt]
        cases entries.lookup "names" <;> cases entries.lookup "characters" <;> rfl

theorem ofEntries_eq {entries : List (String × Tree)} (h : (Tree.map entries).Distinct) :
    ofEntries entries = check (kindsIn (some .player) entries) (view entries) := by
  have hadd : ∀ entry ∈ entries, ∀ player : PlayerMetadata,
      add player entry = check (kindsAt (some .player) entry) (enter player entry) :=
    fun entry hentry player => add_eq player (h.entry hentry)
  rw [ofEntries, foldlM_check hadd, ← kindsIn_eq, foldl_enter h.1]

end PlayerMetadata

namespace Metadata

/-- The players in a map of them. -/
def playersIn (entries : List (String × Tree)) : List (String × PlayerMetadata) :=
  filterMapValues (fun tree => tree.map?.map PlayerMetadata.view) entries

/-- What the entries of the outermost map say. -/
def view (entries : List (String × Tree)) : Metadata where
  startAt := (entries.lookup "startAt").bind Tree.text?
  lastFrame := (entries.lookup "lastFrame").bind Tree.number?
  playedOn := (entries.lookup "playedOn").bind Tree.text?
  consoleNick := (entries.lookup "consoleNick").bind Tree.text?
  players := playersIn (Tree.mapAt "players" entries)

theorem playersOf_eq {entries : List (String × Tree)} (h : (Tree.map entries).Distinct) :
    playersOf entries = check (kindsIn (some .players) entries) (playersIn entries) := by
  rw [playersOf, kindsIn_eq]
  refine mapM_check fun entry hentry =>
    ⟨(entry.1, PlayerMetadata.view (entry.2.map?.getD [])), ?_, fun hfits => ?_⟩
  · refine map_bind_eq_check rfl fun inner hinner => ?_
    have hplayer := h.entry hentry
    rw [hinner] at hplayer
    rw [PlayerMetadata.ofEntries_eq hplayer, hinner]
    exact check_map _ _ fun player => (entry.1, player)
  · obtain ⟨key, tree⟩ := entry
    cases tree with
    | number n => exact absurd (by decide) (hfits (.player, .number) List.mem_cons_self)
    | text s => exact absurd (by decide) (hfits (.player, .text) List.mem_cons_self)
    | map inner => rfl

/-- What an entry changes if its value is of its kind. -/
def enter (metadata : Metadata) : String × Tree → Metadata
  | ("startAt", tree) => { metadata with startAt := tree.text? }
  | ("lastFrame", tree) => { metadata with lastFrame := tree.number? }
  | ("playedOn", tree) => { metadata with playedOn := tree.text? }
  | ("consoleNick", tree) => { metadata with consoleNick := tree.text? }
  | ("players", tree) => { metadata with players := playersIn (tree.map?.getD []) }
  | _ => metadata

theorem add_eq (metadata : Metadata) {entry : String × Tree} (h : entry.2.Distinct) :
    add metadata entry = check (kindsAt none entry) (enter metadata entry) := by
  unfold add
  split
  · cases ‹Tree› <;> rfl
  · cases ‹Tree› <;> rfl
  · cases ‹Tree› <;> rfl
  · cases ‹Tree› <;> rfl
  · refine map_bind_eq_check rfl fun inner hinner => ?_
    subst hinner
    rw [playersOf_eq h]
    exact check_map _ _ fun players => { metadata with players }
  · rename_i hstartAt hlastFrame hplayedOn hconsoleNick hplayers
    obtain ⟨key, tree⟩ := entry
    have hs : key ≠ "startAt" := fun h => hstartAt tree (by rw [h])
    have hl : key ≠ "lastFrame" := fun h => hlastFrame tree (by rw [h])
    have hp : key ≠ "playedOn" := fun h => hplayedOn tree (by rw [h])
    have hc : key ≠ "consoleNick" := fun h => hconsoleNick tree (by rw [h])
    have hplayers' : key ≠ "players" := fun h => hplayers tree (by rw [h])
    have hkinds : kindsAt none (key, tree) = [] := by
      simp [kindsAt, Place.below, hs, hl, hp, hc, hplayers']
    have henter : enter metadata (key, tree) = metadata := by simp [enter]
    rw [hkinds, henter]
    rfl

theorem foldl_enter {entries : List (String × Tree)} (h : (entries.map (·.1)).Nodup) :
    entries.foldl enter {} = view entries := by
  have hstartAt : (entries.foldl enter {}).startAt = _ :=
    foldl_field (k := "startAt") (g := Tree.text?) Metadata.startAt (fun _ _ => rfl)
      (fun metadata key tree hk => by unfold enter; split <;> simp_all) h {}
  have hlastFrame : (entries.foldl enter {}).lastFrame = _ :=
    foldl_field (k := "lastFrame") (g := Tree.number?) Metadata.lastFrame (fun _ _ => rfl)
      (fun metadata key tree hk => by unfold enter; split <;> simp_all) h {}
  have hplayedOn : (entries.foldl enter {}).playedOn = _ :=
    foldl_field (k := "playedOn") (g := Tree.text?) Metadata.playedOn (fun _ _ => rfl)
      (fun metadata key tree hk => by unfold enter; split <;> simp_all) h {}
  have hconsoleNick : (entries.foldl enter {}).consoleNick = _ :=
    foldl_field (k := "consoleNick") (g := Tree.text?) Metadata.consoleNick (fun _ _ => rfl)
      (fun metadata key tree hk => by unfold enter; split <;> simp_all) h {}
  have hplayers : (entries.foldl enter {}).players = _ :=
    foldl_field (k := "players") (g := fun tree => playersIn (tree.map?.getD []))
      Metadata.players (fun _ _ => rfl)
      (fun metadata key tree hk => by unfold enter; split <;> simp_all) h {}
  calc entries.foldl enter {}
      = ⟨(entries.foldl enter {}).startAt, (entries.foldl enter {}).lastFrame,
          (entries.foldl enter {}).playedOn, (entries.foldl enter {}).consoleNick,
          (entries.foldl enter {}).players⟩ := rfl
    _ = view entries := by
        rw [hstartAt, hlastFrame, hplayedOn, hconsoleNick, hplayers]
        simp only [getD_map_none, view, Tree.mapAt]
        cases entries.lookup "players" <;> rfl

/-- The view is that of the lookups, unless some value is not of its kind: then the first of these
is reported. -/
theorem ofEntries_eq {entries : List (String × Tree)} (h : (Tree.map entries).Distinct) :
    ofEntries entries = check (kindsIn none entries) (view entries) := by
  have hadd : ∀ entry ∈ entries, ∀ metadata : Metadata,
      add metadata entry = check (kindsAt none entry) (enter metadata entry) :=
    fun entry hentry metadata => add_eq metadata (h.entry hentry)
  rw [ofEntries, foldlM_check hadd, ← kindsIn_eq, foldl_enter h.1]

end Metadata

end Replay
