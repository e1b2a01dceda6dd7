import Replay.Proofs.MetadataTyped
import Replay.Proofs.UnknownKeys

/-!
The conversion of the metadata as a whole: when it succeeds, what it gives, what it does not look
at and which entry it reports. The order of the entries decides only which of several ill-typed
ones is reported.
-/

namespace Replay

open Metadata Entries

namespace Tree

mutual

/-- The same tree but for the order of the entries of its maps. -/
inductive Reordered : Tree → Tree → Prop where
  | number (n : Int) : Reordered (.number n) (.number n)
  | text (s : String) : Reordered (.text s) (.text s)
  | map {entries others : List (String × Tree)} (inside : ReorderedIn entries others) :
    Reordered (.map entries) (.map others)

inductive ReorderedIn : List (String × Tree) → List (String × Tree) → Prop where
  | nil : ReorderedIn [] []
  | cons (key : String) {tree other : Tree} {entries others : List (String × Tree)}
    (first : Reordered tree other) (rest : ReorderedIn entries others) :
    ReorderedIn ((key, tree) :: entries) ((key, other) :: others)
  | swap (a b : String × Tree) (entries : List (String × Tree)) :
    ReorderedIn (a :: b :: entries) (b :: a :: entries)
  | trans {xs ys zs : List (String × Tree)} (before : ReorderedIn xs ys)
    (after : ReorderedIn ys zs) : ReorderedIn xs zs

end

mutual

theorem Reordered.refl (tree : Tree) : Reordered tree tree := by
  cases tree with
  | number n => exact .number n
  | text s => exact .text s
  | map entries => exact .map (ReorderedIn.refl entries)

theorem ReorderedIn.refl (entries : List (String × Tree)) : ReorderedIn entries entries := by
  cases entries with
  | nil => exact .nil
  | cons entry entries =>
    obtain ⟨key, tree⟩ := entry
    exact .cons key (Reordered.refl tree) (ReorderedIn.refl entries)

end

theorem Reordered.trans {a b c : Tree} (h : Reordered a b) (h' : Reordered b c) :
    Reordered a c := by
  cases h with
  | number n => exact h'
  | text s => exact h'
  | map inside =>
    cases h' with
    | map inside' => exact .map (inside.trans inside')

theorem ReorderedIn.keys {entries others : List (String × Tree)}
    (h : ReorderedIn entries others) : (entries.map (·.1)).Perm (others.map (·.1)) := by
  match h with
  | .nil => exact .nil
  | .cons key first rest => exact .cons key rest.keys
  | .swap a b entries => exact .swap b.1 a.1 _
  | .trans before after => exact before.keys.trans after.keys

mutual

theorem Reordered.distinct {tree other : Tree} (h : Reordered tree other) :
    tree.Distinct → other.Distinct :=
  match h with
  | .number n => id
  | .text s => id
  | .map inside => fun hd => ⟨inside.keys.nodup_iff.mp hd.1, inside.distinctIn hd.2⟩

theorem ReorderedIn.distinctIn {entries others : List (String × Tree)}
    (h : ReorderedIn entries others) : DistinctIn entries → DistinctIn others :=
  match h with
  | .nil => id
  | .cons key first rest => fun hd => ⟨first.distinct hd.1, rest.distinctIn hd.2⟩
  | .swap a b entries => fun hd => ⟨hd.2.1, hd.1, hd.2.2⟩
  | .trans before after => fun hd => after.distinctIn (before.distinctIn hd)

end

theorem rel_comp {α : Type} {r : α → α → Prop} (trans : ∀ {a b c : α}, r a b → r b c → r a c)
    {x y z : Option α} (hxy : Option.Rel r x y) (hyz : Option.Rel r y z) : Option.Rel r x z := by
  cases hxy with
  | none => exact hyz
  | some hab =>
    cases hyz with
    | some hbc => exact .some (trans hab hbc)

theorem lookup_swap {a b : String × Tree} {entries : List (String × Tree)}
    (h : ((a :: b :: entries).map (·.1)).Nodup) (key : String) :
    (a :: b :: entries).lookup key = (b :: a :: entries).lookup key := by
  obtain ⟨k, tree⟩ := a
  obtain ⟨l, other⟩ := b
  have hkl : k ≠ l := fun heq => (List.nodup_cons.mp h).1 (heq ▸ List.mem_cons_self)
  simp only [List.lookup_cons]
  by_cases hk : key = k
  · subst hk
    simp [beq_eq_false_iff_ne.mpr hkl]
  · simp [beq_eq_false_iff_ne.mpr hk]

/-- Reordered maps have the same keys, and reordered values under them. -/
theorem ReorderedIn.lookup {entries others : List (String × Tree)}
    (h : ReorderedIn entries others) (hd : (Tree.map entries).Distinct) (key : String) :
    Option.Rel (fun tree other => Reordered tree other ∧ tree.Distinct)
      (entries.lookup key) (others.lookup key) := by
  match h with
  | .nil => exact .none
  | .cons k first rest =>
    rw [List.lookup_cons, List.lookup_cons]
    cases key == k with
    | true => exact .some ⟨first, hd.2.1⟩
    | false => exact rest.lookup ⟨(List.nodup_cons.mp hd.1).2, hd.2.2⟩ key
  | .swap a b entries =>
    rw [← lookup_swap hd.1 key]
    cases hlookup : (a :: b :: entries).lookup key with
    | none => exact .none
    | some tree => exact .some ⟨.refl tree, hd.lookup hlookup⟩
  | .trans before after =>
    exact rel_comp (fun h h' => ⟨h.1.trans h'.1, h.2⟩) (before.lookup hd key)
      (after.lookup ((Reordered.map before).distinct hd) key)

end Tree

namespace Metadata

mutual

theorem kinds_reordered {tree other : Tree} (h : tree.Reordered other) (place : Place) :
    (kinds place tree).Perm (kinds place other) :=
  match h with
  | .number n => .refl _
  | .text s => .refl _
  | .map inside => by
    rw [kinds, kinds]
    exact .cons _ (kindsIn_reordered inside (some place))

theorem kindsIn_reordered {entries others : List (String × Tree)}
    (h : Tree.ReorderedIn entries others) (above : Option Place) :
    (kindsIn above entries).Perm (kindsIn above others) :=
  match h with
  | .nil => .refl _
  | .cons key first rest => by
    rw [kindsIn, kindsIn]
    refine .append ?_ (kindsIn_reordered rest above)
    split
    · exact kinds_reordered first _
    · exact .refl _
  | .swap a b entries => by
    simp only [kindsIn_eq, List.flatMap_cons]
    exact List.perm_append_comm_assoc _ _ _
  | .trans before after =>
    (kindsIn_reordered before above).trans (kindsIn_reordered after above)

end

theorem bind_lookup_reordered {α : Type} {f : Tree → Option α}
    (hf : ∀ {tree other : Tree}, tree.Reordered other → tree.Distinct → f tree = f other)
    {entries others : List (String × Tree)} (h : Tree.ReorderedIn entries others)
    (hd : (Tree.map entries).Distinct) (key : String) :
    (entries.lookup key).bind f = (others.lookup key).bind f := by
  have hlookup := h.lookup hd key
  generalize entries.lookup key = found, others.lookup key = other at hlookup ⊢
  cases hlookup with
  | none => rfl
  | some htree => exact hf htree.1 htree.2

theorem mapAt_reordered {entries others : List (String × Tree)}
    (h : Tree.ReorderedIn entries others) (hd : (Tree.map entries).Distinct) (key : String) :
    Tree.ReorderedIn (Tree.mapAt key entries) (Tree.mapAt key others) ∧
      (Tree.map (Tree.mapAt key entries)).Distinct := by
  have hempty : (Tree.map []).Distinct := ⟨List.nodup_nil, trivial⟩
  rw [Tree.mapAt, Tree.mapAt]
  have hlookup := h.lookup hd key
  generalize entries.lookup key = found, others.lookup key = other at hlookup ⊢
  cases hlookup with
  | none => exact ⟨.nil, hempty⟩
  | some htree =>
    obtain ⟨htree, hdistinct⟩ := htree
    cases htree with
    | number n => exact ⟨.nil, hempty⟩
    | text s => exact ⟨.nil, hempty⟩
    | map inside => exact ⟨inside, hdistinct⟩

end Metadata

theorem Tree.Reordered.text? {tree other : Tree} (h : tree.Reordered other) :
    tree.text? = other.text? := by
  cases h <;> rfl

theorem Tree.Reordered.number? {tree other : Tree} (h : tree.Reordered other) :
    tree.number? = other.number? := by
  cases h <;> rfl

theorem PlayerNames.view_reordered {entries others : List (String × Tree)}
    (h : Tree.ReorderedIn entries others) (hd : (Tree.map entries).Distinct) :
    view entries = view others := by
  rw [view, bind_lookup_reordered (fun h _ => h.text?) h hd,
    bind_lookup_reordered (fun h _ => h.text?) h hd]
  rfl

/-- The same but for the order of the characters. -/
structure PlayerMetadata.Same (a b : PlayerMetadata) : Prop where
  names : a.names = b.names
  characters : ∀ key, a.characters.lookup key = b.characters.lookup key

theorem PlayerMetadata.view_reordered {entries others : List (String × Tree)}
    (h : Tree.ReorderedIn entries others) (hd : (Tree.map entries).Distinct) :
    (view entries).Same (view others) where
  names := by
    have hnames : ∀ {tree other : Tree}, tree.Reordered other → tree.Distinct →
        tree.map?.map PlayerNames.view = other.map?.map PlayerNames.view := by
      rintro _ _ (_ | _ | inside) htree
      · rfl
      · rfl
      · exact congrArg some (PlayerNames.view_reordered inside htree)
    rw [view, view, Option.map_bind, Option.map_bind]
    exact bind_lookup_reordered hnames h hd "names"
  characters key := by
    obtain ⟨hcounts, hdistinct⟩ := mapAt_reordered h hd "characters"
    have hdistinct' := (Tree.Reordered.map hcounts).distinct hdistinct
    rw [view, view, counts, counts, lookup_filterMapValues _ hdistinct.1,
      lookup_filterMapValues _ hdistinct'.1]
    exact bind_lookup_reordered (fun h _ => h.number?) hcounts hdistinct key

namespace Metadata

/-- The same but for the order of the players and of their characters. -/
structure Same (a b : Metadata) : Prop where
  startAt : a.startAt = b.startAt
  lastFrame : a.lastFrame = b.lastFrame
  playedOn : a.playedOn = b.playedOn
  consoleNick : a.consoleNick = b.consoleNick
  players : ∀ key, Option.Rel PlayerMetadata.Same (a.players.lookup key) (b.players.lookup key)

theorem view_reordered {entries others : List (String × Tree)}
    (h : Tree.ReorderedIn entries others) (hd : (Tree.map entries).Distinct) :
    (view entries).Same (view others) where
  startAt := bind_lookup_reordered (fun h _ => h.text?) h hd "startAt"
  lastFrame := bind_lookup_reordered (fun h _ => h.number?) h hd "lastFrame"
  playedOn := bind_lookup_reordered (fun h _ => h.text?) h hd "playedOn"
  consoleNick := bind_lookup_reordered (fun h _ => h.text?) h hd "consoleNick"
  players key := by
    obtain ⟨hplayers, hdistinct⟩ := mapAt_reordered h hd "players"
    have hdistinct' := (Tree.Reordered.map hplayers).distinct hdistinct
    rw [view, view, playersIn, playersIn, lookup_filterMapValues _ hdistinct.1,
      lookup_filterMapValues _ hdistinct'.1]
    have hlookup := hplayers.lookup hdistinct key
    generalize (Tree.mapAt "players" entries).lookup key = found,
      (Tree.mapAt "players" others).lookup key = other at hlookup ⊢
    cases hlookup with
    | none => exact .none
    | some htree =>
      obtain ⟨htree, hplayer⟩ := htree
      cases htree with
      | number n => exact .none
      | text s => exact .none
      | map inside => exact .some (PlayerMetadata.view_reordered inside hplayer)

theorem typed_reordered {entries others : List (String × Tree)}
    (h : Tree.ReorderedIn entries others) : Typed entries ↔ Typed others := by
  rw [← fitting_iff, ← fitting_iff, Fitting, Fitting]
  exact forall_congr' fun x => imp_congr_left (kindsIn_reordered h none).mem_iff

section

variable {entries : List (String × Tree)} (h : (Tree.map entries).Distinct)
include h

theorem ofEntries_eq_ok_iff {metadata : Metadata} :
    ofEntries entries = .ok metadata ↔ Typed entries ∧ view entries = metadata := by
  rw [ofEntries_eq h, check_eq_ok_iff, fitting_iff]

theorem succeeds_iff : (∃ metadata, ofEntries entries = .ok metadata) ↔ Typed entries := by
  simp only [ofEntries_eq_ok_iff h, exists_and_left, exists_eq', and_true]

end

/-- Metadata with an entry that nobody knows. -/
def future : List (String × Tree) :=
  [("startAt", .text "2022"), ("later", .number 1),
    ("players", .map [("0", .map [("characters", .map [("1", .number 5333)])])])]

end Metadata

end Replay
