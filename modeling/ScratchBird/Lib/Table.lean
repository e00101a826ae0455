import Mathlib.Data.List.Sort

/-!
# Keyed tables

A table is a list of records with a key function. The imperative code it stands
for looks a record up by scanning for the first match and then writes through
the pointer it found, so `modify` rewrites the first match and leaves the rest
of the list, duplicates included, alone. Where the keys are distinct the first
match is the only one, and the two rules used everywhere else are
`lookup_eq_some_iff` and `mem_modify_iff`.
-/

namespace ScratchBird.Lib

open List

variable {α κ : Type} [DecidableEq κ]

/-- The first record with key `k`. -/
def lookup (key : α → κ) (k : κ) (t : List α) : Option α := t.find? fun a => decide (key a = k)

/-- Rewrite the first record with key `k`. -/
def modify (key : α → κ) (k : κ) (g : α → α) : List α → List α
  | [] => []
  | a :: t => if key a = k then g a :: t else a :: modify key k g t

variable {key : α → κ} {k : κ} {g : α → α} {t : List α} {a b : α}

theorem mem_of_lookup (h : lookup key k t = some a) : a ∈ t := List.mem_of_find?_eq_some h

theorem key_of_lookup (h : lookup key k t = some a) : key a = k := by simpa using List.find?_some h

theorem lookup_eq_none_iff : lookup key k t = none ↔ ∀ a ∈ t, key a ≠ k := by
  simp [lookup]

theorem lookup_eq_some_iff (hnd : (t.map key).Nodup) :
    lookup key k t = some a ↔ a ∈ t ∧ key a = k := by
  constructor
  · intro h
    exact ⟨mem_of_lookup h, key_of_lookup h⟩
  · rintro ⟨ha, rfl⟩
    cases h : lookup key (key a) t with
    | none => exact absurd rfl (lookup_eq_none_iff.mp h a ha)
    | some b => rw [List.inj_on_of_nodup_map hnd (mem_of_lookup h) ha (key_of_lookup h)]

/-- A rewrite that keeps a projection keeps its list of values. -/
theorem map_modify {β : Type} {f : α → β} (hg : ∀ a ∈ t, key a = k → f (g a) = f a) :
    (modify key k g t).map f = t.map f := by
  induction t with
  | nil => rfl
  | cons x t ih =>
    simp only [modify]
    split
    · next hx => simp [hg x (by simp) hx]
    · simp [ih (forall_mem_cons.mp hg).2]

/-- Of two constant writes to one key the second is all that is left. -/
theorem modify_modify (hb : key b = k) :
    modify key k (fun _ => a) (modify key k (fun _ => b) t) =
      modify key k (fun _ => a) t := by
  induction t with
  | nil => rfl
  | cons x t ih =>
    simp only [modify]
    split
    · next hx => rw [modify, if_pos hb]
    · next hx => rw [modify, if_neg hx, ih]

/-- A lookup finds the record a constant write put there. -/
theorem lookup_modify_self (h : lookup key k t = some a) (hb : key b = k) :
    lookup key k (modify key k (fun _ => b) t) = some b := by
  induction t with
  | nil => cases h
  | cons x t ih =>
    rw [modify]
    split
    · rw [lookup, List.find?_cons_of_pos (by simpa using hb)]
    · next hx =>
      rw [lookup, find?_cons_of_neg (by simpa using hx)] at h ⊢
      exact ih h

/-- A lookup of another key does not see a constant write. -/
theorem lookup_modify_ne {j : κ} (hb : key b = k) (hne : j ≠ k) :
    lookup key j (modify key k (fun _ => b) t) = lookup key j t := by
  induction t with
  | nil => rfl
  | cons x t ih =>
    rw [modify]
    split
    · next hx =>
      rw [lookup, lookup, find?_cons_of_neg (by simpa [hb] using hne.symm),
        find?_cons_of_neg (by simpa [hx] using hne.symm)]
    · rw [lookup] at ih ⊢
      rw [List.find?_cons, ih]
      rfl

/-- Writing back what was found changes nothing. -/
theorem modify_lookup (h : lookup key k t = some a) :
    modify key k (fun _ => a) t = t := by
  induction t with
  | nil => rfl
  | cons x t ih =>
    rw [modify]
    split
    · next hx =>
      rw [lookup, List.find?_cons_of_pos (by simpa using hx)] at h
      rw [Option.some.inj h]
    · next hx =>
      rw [lookup, find?_cons_of_neg (by simpa using hx)] at h
      rw [ih h]

theorem mem_of_mem_modify (h : b ∈ modify key k g t) : b ∈ t ∨ ∃ a ∈ t, b = g a := by
  fun_induction modify key k g t with
  | case1 => exact .inl h
  | case2 x t =>
    rcases mem_cons.mp h with rfl | h
    · exact .inr ⟨x, mem_cons_self, rfl⟩
    · exact .inl (mem_cons_of_mem _ h)
  | case3 x t _ ih =>
    rcases mem_cons.mp h with rfl | h
    · exact .inl mem_cons_self
    · rcases ih h with h | ⟨a, ha, rfl⟩
      · exact .inl (mem_cons_of_mem _ h)
      · exact .inr ⟨a, mem_cons_of_mem _ ha, rfl⟩

/-- Where the keys are distinct, the first match is the only one. -/
theorem modify_eq_map (hnd : (t.map key).Nodup) :
    modify key k g t = t.map fun a => if key a = k then g a else a := by
  fun_induction modify key k g t with
  | case1 => rfl
  | case2 x t hx =>
    rw [map_cons, nodup_cons] at hnd
    have hfree : ∀ y ∈ t, (if key y = k then g y else y) = y := fun y hy =>
      if_neg fun hk : key y = k => hnd.1 (hk.trans hx.symm ▸ mem_map_of_mem hy)
    rw [map_cons, if_pos hx, List.map_congr_left hfree, List.map_id']
  | case3 x t hx ih => rw [ih (nodup_cons.mp hnd).2, map_cons, if_neg hx]

theorem mem_modify_iff (hnd : (t.map key).Nodup) :
    b ∈ modify key k g t ↔ (b ∈ t ∧ key b ≠ k) ∨ ∃ a ∈ t, key a = k ∧ b = g a := by
  rw [modify_eq_map hnd, mem_map]
  constructor
  · rintro ⟨a, ha, rfl⟩
    split
    · next hk => exact .inr ⟨a, ha, hk, rfl⟩
    · next hk => exact .inl ⟨ha, hk⟩
  · rintro (⟨hb, hne⟩ | ⟨a, ha, hk, rfl⟩)
    · exact ⟨b, hb, if_neg hne⟩
    · exact ⟨a, ha, if_pos hk⟩

end ScratchBird.Lib
