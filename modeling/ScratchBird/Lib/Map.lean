import Mathlib.Data.List.AList
import Mathlib.Data.List.Sort

/-!
# Finite maps

An ordered map of the source is an association list without duplicate keys. The
order of the list is that of the insertions, so code that iterates in the order
of the keys sorts them first.

What Mathlib states for equal and for different keys is stated here as one `if`,
since a step that changes one key is proved to keep a fact about every key by a
case split on that `if`.
-/

namespace ScratchBird.Lib

abbrev Map (κ ν : Type) := AList fun _ : κ => ν

namespace Map

variable {κ ν : Type}

def size (m : Map κ ν) : Nat := m.entries.length

def values (m : Map κ ν) : List ν := m.entries.map Sigma.snd

/-- The entries whose value passes the test. -/
def filter (keep : ν → Bool) (m : Map κ ν) : Map κ ν where
  entries := m.entries.filter fun entry => keep entry.2
  nodupKeys := m.nodupKeys.sublist List.filter_sublist

theorem size_eq (m : Map κ ν) : size m = m.keys.length := (List.length_map _).symm

section

variable [DecidableEq κ] {m : Map κ ν} {k j : κ} {v : ν}

theorem lookup_insert_if :
    (AList.insert k v m).lookup j = if j = k then some v else m.lookup j := by
  split
  · next h =>
    subst h
    exact AList.lookup_insert m
  · next h => exact AList.lookup_insert_ne h

theorem lookup_erase_if : (AList.erase k m).lookup j = if j = k then none else m.lookup j := by
  split
  · next h =>
    subst h
    exact AList.lookup_erase j m
  · next h => exact AList.lookup_erase_ne h

theorem lookup_erase_iff : (AList.erase k m).lookup j = some v ↔ j ≠ k ∧ m.lookup j = some v := by
  rw [lookup_erase_if]
  by_cases h : j = k <;> simp [h]

theorem mem_values : v ∈ values m ↔ ∃ k, m.lookup k = some v := by
  rw [values, List.mem_map]
  constructor
  · rintro ⟨⟨k, w⟩, hmem, rfl⟩
    exact ⟨k, AList.mem_lookup_iff.mpr hmem⟩
  · rintro ⟨k, hk⟩
    exact ⟨⟨k, v⟩, AList.mem_lookup_iff.mp hk, rfl⟩

theorem lookup_filter_iff {keep : ν → Bool} :
    (filter keep m).lookup k = some v ↔ m.lookup k = some v ∧ keep v = true := by
  rw [← Option.mem_def, AList.mem_lookup_iff, ← Option.mem_def, AList.mem_lookup_iff]
  exact List.mem_filter

theorem size_erase (h : (m.lookup k).isSome) : size (m.erase k) + 1 = size m := by
  have hmem : k ∈ m.keys := AList.mem_keys.mp (AList.lookup_isSome.mp h)
  have hpos := List.length_pos_of_mem hmem
  rw [size_eq, size_eq, AList.keys_erase, List.length_erase_of_mem hmem]
  omega

theorem size_insert (h : (m.lookup k).isSome) : size (m.insert k v) = size m := by
  rw [← size_erase h, size_eq, size_eq, AList.keys_insert, AList.keys_erase, List.length_cons]

end

end Map

end ScratchBird.Lib
