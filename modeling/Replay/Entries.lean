/-!
Lists of keyed values in the order in which the keys first appeared.
-/

namespace Replay.Entries

variable {κ α : Type} [BEq κ]

/-- Writes one entry: a new key goes to the end, and a key that is present keeps its place and
takes the new value. -/
def put (key : κ) (value : α) : List (κ × α) → List (κ × α)
  | [] => [(key, value)]
  | (k, v) :: entries =>
    if k == key then (k, value) :: entries else (k, v) :: put key value entries

variable [LawfulBEq κ]

theorem lookup_put (key k : κ) (value : α) (entries : List (κ × α)) :
    (put key value entries).lookup k = if k == key then some value else entries.lookup k := by
  induction entries with
  | nil =>
    simp only [put, List.lookup_cons, List.lookup_nil]
    split <;> simp_all
  | cons entry entries ih =>
    obtain ⟨l, v⟩ := entry
    simp only [put]
    by_cases hl : l == key
    · have := eq_of_beq hl
      subst this
      simp only [hl, ↓reduceIte, List.lookup_cons]
      split <;> simp_all
    · simp only [hl, Bool.false_eq_true, ↓reduceIte, List.lookup_cons, ih]
      by_cases hk : k == l
      · have := eq_of_beq hk
        subst this
        simp [hl]
      · simp [hk]

theorem keys_put (key : κ) (value : α) (entries : List (κ × α)) :
    (put key value entries).map (·.1) =
      if (entries.map (·.1)).contains key then entries.map (·.1)
      else entries.map (·.1) ++ [key] := by
  induction entries with
  | nil => simp [put]
  | cons entry entries ih =>
    obtain ⟨l, v⟩ := entry
    simp only [put]
    by_cases hl : l = key
    · subst hl
      simp
    · have hk : ¬key = l := fun h => hl h.symm
      simp only [beq_iff_eq, hl, ↓reduceIte, List.map_cons, ih, List.contains_cons,
        beq_eq_false_iff_ne.mpr hk, Bool.false_or]
      split <;> rfl

end Replay.Entries
