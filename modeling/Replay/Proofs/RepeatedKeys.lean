import Replay.Entries
import Mathlib.Data.List.Induction

/-!
What becomes of keys that are written more than once. Entries that are put one after another end
up in the order in which their keys first appeared, each with the last value for its key.
-/

namespace Replay.Entries

variable {κ α : Type} [BEq κ]

/-- A repeated key keeps its first place and takes its last value. -/
def collapse : List (κ × α) → List (κ × α)
  | [] => []
  | (key, value) :: entries =>
    (key, (entries.reverse.lookup key).getD value) ::
      (collapse entries).filter fun entry => entry.1 != key

/-- All entries put in order into a list that holds others already. -/
def putAll (entries others : List (κ × α)) : List (κ × α) :=
  entries.foldl (fun all entry => put entry.1 entry.2 all) others

variable [LawfulBEq κ]

theorem filter_put_same (key : κ) (value : α) (entries : List (κ × α)) :
    (put key value entries).filter (fun entry => entry.1 != key) =
      entries.filter fun entry => entry.1 != key := by
  induction entries with
  | nil => simp [put]
  | cons entry entries ih =>
    obtain ⟨k, v⟩ := entry
    by_cases hk : k = key
    · subst hk
      simp [put]
    · simp [put, hk, ih]

theorem filter_put_other {key other : κ} (h : key ≠ other) (value : α) (entries : List (κ × α)) :
    (put key value entries).filter (fun entry => entry.1 != other) =
      put key value (entries.filter fun entry => entry.1 != other) := by
  induction entries with
  | nil => simp [put, h]
  | cons entry entries ih =>
    obtain ⟨k, v⟩ := entry
    by_cases hk : k = key
    · subst hk
      simp [put, h]
    · by_cases ho : k = other
      · subst ho
        simp [put, hk, ih]
      · simp [put, hk, ho, ih]

/-- One more entry behind is put into what the others come to. -/
theorem collapse_concat (key : κ) (value : α) (entries : List (κ × α)) :
    collapse (entries ++ [(key, value)]) = put key value (collapse entries) := by
  induction entries with
  | nil => rfl
  | cons entry entries ih =>
    obtain ⟨k, v⟩ := entry
    rw [List.cons_append, collapse, collapse, ih, List.reverse_append, List.reverse_singleton,
      List.singleton_append, List.lookup_cons]
    by_cases hk : k = key
    · subst hk
      rw [filter_put_same]
      simp [put]
    · have hkey : key ≠ k := fun h => hk h.symm
      have hbeq : (k == key) = false := beq_eq_false_iff_ne.mpr hk
      rw [filter_put_other hkey, hbeq]
      simp [put, hk]

theorem putAll_nil (entries : List (κ × α)) : putAll entries [] = collapse entries := by
  induction entries using List.reverseRecOn with
  | nil => rfl
  | append_singleton entries entry ih =>
    rw [putAll, List.foldl_append]
    change put entry.1 entry.2 (putAll entries []) = _
    rw [ih, ← collapse_concat]

/-- Entries without a repeated key stay as they are. -/
theorem collapse_of_nodup {entries : List (κ × α)} (h : (entries.map (·.1)).Nodup) :
    collapse entries = entries := by
  induction entries with
  | nil => rfl
  | cons entry entries ih =>
    obtain ⟨key, value⟩ := entry
    rw [List.map_cons, List.nodup_cons] at h
    obtain ⟨hnew, hrest⟩ := h
    have hkeys : ∀ entry ∈ entries, entry.1 ≠ key :=
      fun entry hm he => hnew (List.mem_map.mpr ⟨entry, hm, he⟩)
    have hlookup : entries.reverse.lookup key = none := by
      rw [List.lookup_eq_none_iff]
      intro entry hm
      exact bne_iff_ne.mpr (hkeys entry (List.mem_reverse.mp hm)).symm
    have hfilter : (entries.filter fun entry => entry.1 != key) = entries :=
      List.filter_eq_self.mpr fun entry hm => by simpa using hkeys entry hm
    rw [collapse, ih hrest, hlookup, hfilter]
    rfl

end Replay.Entries
