import Replay.Proofs.MetadataView

/-!
When the metadata has a view: the entries with known keys must be of their kinds, on every level.
-/

namespace Replay

open Metadata Entries

/-- What the names of a player must be. -/
structure PlayerNames.Typed (entries : List (String × Tree)) : Prop where
  netplay : ∀ tree, ("netplay", tree) ∈ entries → ∃ s, tree = .text s
  code : ∀ tree, ("code", tree) ∈ entries → ∃ s, tree = .text s

/-- What a player must be. -/
structure PlayerMetadata.Typed (entries : List (String × Tree)) : Prop where
  names : ∀ tree, ("names", tree) ∈ entries →
    ∃ names, tree = .map names ∧ PlayerNames.Typed names
  characters : ∀ tree, ("characters", tree) ∈ entries →
    ∃ counts, tree = .map counts ∧ ∀ key count, (key, count) ∈ counts → ∃ n, count = .number n

/-- What the metadata must be. -/
structure Metadata.Typed (entries : List (String × Tree)) : Prop where
  startAt : ∀ tree, ("startAt", tree) ∈ entries → ∃ s, tree = .text s
  lastFrame : ∀ tree, ("lastFrame", tree) ∈ entries → ∃ n, tree = .number n
  playedOn : ∀ tree, ("playedOn", tree) ∈ entries → ∃ s, tree = .text s
  consoleNick : ∀ tree, ("consoleNick", tree) ∈ entries → ∃ s, tree = .text s
  players : ∀ tree, ("players", tree) ∈ entries →
    ∃ players, tree = .map players ∧ ∀ key player, (key, player) ∈ players →
      ∃ entries, player = .map entries ∧ PlayerMetadata.Typed entries

theorem PlayerNames.fitting_iff {entries : List (String × Tree)} :
    Fitting (kindsIn (some .names) entries) ↔ Typed entries := by
  rw [fitting_kindsIn_iff]
  constructor
  · exact fun h => {
      netplay := fun tree ht => (fitting_text_iff rfl).mp (h _ tree ht .netplay rfl)
      code := fun tree ht => (fitting_text_iff rfl).mp (h _ tree ht .code rfl) }
  · intro h key tree ht place hplace
    rcases Place.known_of_below_names hplace with ⟨rfl, rfl⟩ | ⟨rfl, rfl⟩
    · exact (fitting_text_iff rfl).mpr (h.netplay tree ht)
    · exact (fitting_text_iff rfl).mpr (h.code tree ht)

namespace PlayerMetadata

theorem fitting_counts_iff {counts : List (String × Tree)} :
    Fitting (kindsIn (some .characters) counts) ↔
      ∀ key count, (key, count) ∈ counts → ∃ n, count = .number n := by
  rw [fitting_kindsIn_iff]
  constructor
  · exact fun h key count hcount => (fitting_number_iff rfl).mp (h key count hcount .frameCount rfl)
  · intro h key count hcount place hplace
    cases hplace
    exact (fitting_number_iff rfl).mpr (h key count hcount)

theorem fitting_iff {entries : List (String × Tree)} :
    Fitting (kindsIn (some .player) entries) ↔ Typed entries := by
  rw [fitting_kindsIn_iff]
  constructor
  · intro h
    constructor
    · intro tree ht
      obtain ⟨names, rfl, hnames⟩ := (fitting_map_iff rfl).mp (h _ tree ht .names rfl)
      exact ⟨names, rfl, PlayerNames.fitting_iff.mp hnames⟩
    · intro tree ht
      obtain ⟨counts, rfl, hcounts⟩ := (fitting_map_iff rfl).mp (h _ tree ht .characters rfl)
      exact ⟨counts, rfl, fitting_counts_iff.mp hcounts⟩
  · intro h key tree ht place hplace
    rcases Place.known_of_below_player hplace with ⟨rfl, rfl⟩ | ⟨rfl, rfl⟩
    · obtain ⟨names, rfl, hnames⟩ := h.names tree ht
      exact (fitting_map_iff rfl).mpr ⟨names, rfl, PlayerNames.fitting_iff.mpr hnames⟩
    · obtain ⟨counts, rfl, hcounts⟩ := h.characters tree ht
      exact (fitting_map_iff rfl).mpr ⟨counts, rfl, fitting_counts_iff.mpr hcounts⟩

end PlayerMetadata

namespace Metadata

theorem fitting_players_iff {players : List (String × Tree)} :
    Fitting (kindsIn (some .players) players) ↔ ∀ key player, (key, player) ∈ players →
      ∃ entries, player = .map entries ∧ PlayerMetadata.Typed entries := by
  rw [fitting_kindsIn_iff]
  constructor
  · intro h key player hplayer
    obtain ⟨entries, rfl, hentries⟩ := (fitting_map_iff rfl).mp (h key player hplayer .player rfl)
    exact ⟨entries, rfl, PlayerMetadata.fitting_iff.mp hentries⟩
  · intro h key player hplayer place hplace
    cases hplace
    obtain ⟨entries, rfl, hentries⟩ := h key player hplayer
    exact (fitting_map_iff rfl).mpr ⟨entries, rfl, PlayerMetadata.fitting_iff.mpr hentries⟩

theorem fitting_iff {entries : List (String × Tree)} :
    Fitting (kindsIn none entries) ↔ Typed entries := by
  rw [fitting_kindsIn_iff]
  constructor
  · exact fun h => {
      startAt := fun tree ht => (fitting_text_iff rfl).mp (h _ tree ht .startAt rfl)
      lastFrame := fun tree ht => (fitting_number_iff rfl).mp (h _ tree ht .lastFrame rfl)
      playedOn := fun tree ht => (fitting_text_iff rfl).mp (h _ tree ht .playedOn rfl)
      consoleNick := fun tree ht => (fitting_text_iff rfl).mp (h _ tree ht .consoleNick rfl)
      players := fun tree ht => by
        obtain ⟨players, rfl, hplayers⟩ := (fitting_map_iff rfl).mp (h _ tree ht .players rfl)
        exact ⟨players, rfl, fitting_players_iff.mp hplayers⟩ }
  · intro h key tree ht place hplace
    rcases Place.known_of_below_none hplace with ⟨rfl, rfl⟩ | ⟨rfl, rfl⟩ | ⟨rfl, rfl⟩ |
      ⟨rfl, rfl⟩ | ⟨rfl, rfl⟩
    · exact (fitting_text_iff rfl).mpr (h.startAt tree ht)
    · exact (fitting_number_iff rfl).mpr (h.lastFrame tree ht)
    · exact (fitting_text_iff rfl).mpr (h.playedOn tree ht)
    · exact (fitting_text_iff rfl).mpr (h.consoleNick tree ht)
    · obtain ⟨players, rfl, hplayers⟩ := h.players tree ht
      exact (fitting_map_iff rfl).mpr ⟨players, rfl, fitting_players_iff.mpr hplayers⟩

end Metadata

end Replay
