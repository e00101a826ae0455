import Mathlib.Data.List.Sort

/-!
# Codes that keep an order

Words over an ordered alphabet are compared letter by letter, and a proper
prefix comes first. That last rule is what makes concatenation unsafe: after the
end of the shorter word the comparison goes on in whatever follows it. Two words
are *separated* when the comparison is settled before either ends, or they are
equal. Separation survives concatenation, and the results combine in order, so a
code whose words are pairwise separated can be used field by field.

The code at the end of the file is the usual one: the least letter is followed
by a mark, and a word is closed by the least letter twice.
-/

namespace ScratchBird.Lib

open List

variable {β : Type} {w : List β}

section Separation

variable [Ord β] {u v u' v' : List β} {o o' : Ordering}

/-- The comparison of two words that does not look past the end of either. -/
def separate : List β → List β → Option Ordering
  | [], [] => some .eq
  | x :: u, y :: v =>
    match compare x y with
    | .eq => separate u v
    | o => some o
  | _, _ => none

theorem separate_cons_cons {x y : β} : separate (x :: u) (y :: v) =
      match compare x y with
      | .eq => separate u v
      | o => some o := by
  rw [separate]

theorem compare_of_separate (h : separate u v = some o) : compare u v = o := by
  induction u generalizing v with
  | nil =>
    cases v with
    | nil => exact Option.some.inj h
    | cons y v => cases h
  | cons x u ih =>
    cases v with
    | nil => cases h
    | cons y v =>
      rw [separate_cons_cons] at h
      rw [List.compare_cons_cons]
      cases hxy : compare x y with
      | eq =>
        rw [hxy] at h
        exact ih h
      | lt =>
        rw [hxy] at h
        exact Option.some.inj h
      | gt =>
        rw [hxy] at h
        exact Option.some.inj h

/-- What follows separated words only matters when they are equal. -/
theorem separate_append (h : separate u v = some o) (h' : o = .eq → separate u' v' = some o') :
    separate (u ++ u') (v ++ v') = some (o.then o') := by
  induction u generalizing v with
  | nil =>
    cases v with
    | nil =>
      obtain rfl : Ordering.eq = o := Option.some.inj h
      exact h' rfl
    | cons y v => cases h
  | cons x u ih =>
    cases v with
    | nil => cases h
    | cons y v =>
      rw [separate_cons_cons] at h
      rw [cons_append, cons_append, separate_cons_cons]
      cases hxy : compare x y with
      | eq =>
        rw [hxy] at h
        exact ih h
      | lt =>
        rw [hxy] at h
        obtain rfl : Ordering.lt = o := Option.some.inj h
        rfl
      | gt =>
        rw [hxy] at h
        obtain rfl : Ordering.gt = o := Option.some.inj h
        rfl

theorem separate_self [Std.ReflOrd β] : separate u u = some .eq := by
  induction u with
  | nil => rfl
  | cons x u ih =>
    rw [separate_cons_cons, Std.ReflOrd.compare_self]
    exact ih

/-- A letter map that turns the order around turns a separation around. -/
theorem separate_map_swap {f : β → β} (hf : ∀ x y, compare (f x) (f y) = (compare x y).swap)
    (h : separate u v = some o) : separate (u.map f) (v.map f) = some o.swap := by
  induction u generalizing v with
  | nil =>
    cases v with
    | nil =>
      obtain rfl : Ordering.eq = o := Option.some.inj h
      rfl
    | cons y v => cases h
  | cons x u ih =>
    cases v with
    | nil => cases h
    | cons y v =>
      rw [separate_cons_cons] at h
      rw [map_cons, map_cons, separate_cons_cons, hf]
      cases hxy : compare x y with
      | eq =>
        rw [hxy] at h
        exact ih h
      | lt =>
        rw [hxy] at h
        obtain rfl : Ordering.lt = o := Option.some.inj h
        rfl
      | gt =>
        rw [hxy] at h
        obtain rfl : Ordering.gt = o := Option.some.inj h
        rfl

end Separation

/-! ## Escaping the least letter -/

section Escape

variable [DecidableEq β]

def escape (bot mark : β) (w : List β) : List β :=
  w.flatMap fun x => if x = bot then [x, mark] else [x]

def terminated (bot mark : β) (w : List β) : List β := escape bot mark w ++ [bot, bot]

variable {bot mark : β}

theorem terminated_cons_bot :
    terminated bot mark (bot :: w) = bot :: mark :: terminated bot mark w := by
  simp [terminated, escape]

theorem terminated_cons_of_ne {x : β} (h : x ≠ bot) :
    terminated bot mark (x :: w) = x :: terminated bot mark w := by
  simp [terminated, escape, h]

theorem escape_cons_bot : escape bot mark (bot :: w) = bot :: mark :: escape bot mark w := by
  simp [escape]

theorem escape_cons_of_ne {x : β} (h : x ≠ bot) :
    escape bot mark (x :: w) = x :: escape bot mark w := by
  simp [escape, h]

/-- An escaped word that is not closed starts the closed words it is a beginning
of, and no others, whatever follows them. -/
theorem escape_prefix_iff (hmark : mark ≠ bot) {p t : List β} :
    escape bot mark p <+: terminated bot mark w ++ t ↔ p <+: w := by
  have hend : terminated bot mark ([] : List β) = [bot, bot] := rfl
  induction p generalizing w with
  | nil => exact iff_of_true List.nil_prefix List.nil_prefix
  | cons x p ih =>
    cases w with
    | nil =>
      refine iff_of_false ?_ (by simp)
      rw [hend, cons_append, cons_append]
      by_cases hx : x = bot
      · rw [hx, escape_cons_bot, cons_prefix_cons, cons_prefix_cons]
        exact fun h => hmark h.2.1
      · rw [escape_cons_of_ne hx, cons_prefix_cons]
        exact fun h => hx h.1
    | cons y w =>
      rw [cons_prefix_cons]
      by_cases hx : x = bot
      · by_cases hy : y = bot
        · rw [hx, hy, escape_cons_bot, terminated_cons_bot]
          simpa using ih
        · rw [hx, escape_cons_bot, terminated_cons_of_ne hy, cons_append, cons_prefix_cons]
          exact iff_of_false (fun h => hy h.1.symm) fun h => hy h.1.symm
      · rw [escape_cons_of_ne hx]
        by_cases hy : y = bot
        · rw [hy, terminated_cons_bot, cons_append, cons_prefix_cons]
          exact iff_of_false (fun h => hx h.1) fun h => hx h.1
        · rw [terminated_cons_of_ne hy, cons_append, cons_prefix_cons]
          exact and_congr_right fun _ => ih

variable [Ord β] [Std.TransOrd β] [Std.LawfulEqOrd β]

/-- Escaped and terminated words are separated, in the order of the words. -/
theorem separate_terminated (hbot : ∀ x, x ≠ bot → compare bot x = .lt)
    (hmark : mark ≠ bot) (w w' : List β) :
    separate (terminated bot mark w) (terminated bot mark w') = some (compare w w') := by
  have hgt : ∀ x, x ≠ bot → compare x bot = .gt := fun x hx => by
    rw [Std.OrientedOrd.eq_swap, hbot x hx]
    rfl
  have hend : terminated bot mark ([] : List β) = [bot, bot] := rfl
  induction w generalizing w' with
  | nil =>
    cases w' with
    | nil => exact separate_self
    | cons y w' =>
      rw [hend, List.compare_nil_cons]
      by_cases hy : y = bot
      · subst hy
        rw [terminated_cons_bot, separate_cons_cons, Std.ReflOrd.compare_self]
        rw [separate_cons_cons, hbot mark hmark]
      · rw [terminated_cons_of_ne hy, separate_cons_cons, hbot y hy]
  | cons x w ih =>
    cases w' with
    | nil =>
      rw [hend, List.compare_cons_nil]
      by_cases hx : x = bot
      · subst hx
        rw [terminated_cons_bot, separate_cons_cons, Std.ReflOrd.compare_self]
        rw [separate_cons_cons, hgt mark hmark]
      · rw [terminated_cons_of_ne hx, separate_cons_cons, hgt x hx]
    | cons y w' =>
      rw [List.compare_cons_cons]
      by_cases hx : x = bot
      · subst hx
        by_cases hy : y = x
        · subst hy
          rw [terminated_cons_bot, terminated_cons_bot, separate_cons_cons,
            Std.ReflOrd.compare_self]
          rw [separate_cons_cons, Std.ReflOrd.compare_self]
          exact ih w'
        · rw [terminated_cons_bot, terminated_cons_of_ne hy, separate_cons_cons, hbot y hy]
          rfl
      · rw [terminated_cons_of_ne hx]
        by_cases hy : y = bot
        · subst hy
          rw [terminated_cons_bot, separate_cons_cons, hgt x hx]
          rfl
        · rw [terminated_cons_of_ne hy, separate_cons_cons]
          cases hxy : compare x y with
          | eq => exact ih w'
          | lt => rfl
          | gt => rfl

end Escape

/-!
## Words with a common beginning

In the order that compares words letter by letter, the words that begin with a
given word stand together: they lie between the word itself and any of its own
continuations, and nothing else does. They end where the word's advance begins.
-/

variable [Ord β] {p t : List β}

/-- A word comes before its continuations. -/
theorem compare_append_ne_gt [Std.ReflOrd β] : compare p (p ++ t) ≠ .gt := by
  induction p with
  | nil =>
    cases t with
    | nil => simp
    | cons x t => simp [List.compare_nil_cons]
  | cons x p ih =>
    rw [cons_append, List.compare_cons_cons, Std.ReflOrd.compare_self]
    exact ih

/-- A word between another and one of its continuations begins with it. -/
theorem prefix_of_between [Std.OrientedOrd β] [Std.LawfulEqOrd β]
    (hlow : compare p w ≠ .gt) (hhigh : compare w (p ++ t) ≠ .gt) : p <+: w := by
  induction p generalizing w with
  | nil => exact List.nil_prefix
  | cons x p ih =>
    cases w with
    | nil => exact absurd List.compare_cons_nil hlow
    | cons y w =>
      rw [List.compare_cons_cons] at hlow
      rw [cons_append, List.compare_cons_cons, Std.OrientedOrd.eq_swap (a := y)] at hhigh
      cases hxy : compare x y with
      | lt =>
        rw [hxy] at hhigh
        exact absurd rfl hhigh
      | gt =>
        rw [hxy] at hlow
        exact absurd rfl hlow
      | eq =>
        rw [hxy] at hlow hhigh
        obtain rfl := Std.LawfulEqOrd.eq_of_compare hxy
        exact (List.prefix_cons_inj x).mpr (ih hlow hhigh)

/-- The last letter that is not the greatest is replaced by the next one, and
what follows it is dropped. A word of greatest letters has no advance: nothing
comes after all its continuations. -/
def advance [DecidableEq β] (top : β) (next : β → β) : List β → Option (List β)
  | [] => none
  | x :: p =>
    match advance top next p with
    | some u => some (x :: u)
    | none => if x = top then none else some [next x]

/-- Every continuation of a word comes before its advance. -/
theorem compare_append_advance [DecidableEq β] [Std.ReflOrd β] {top : β}
    {next : β → β} {u : List β} (hnext : ∀ x, x ≠ top → compare x (next x) = .lt)
    (h : advance top next p = some u) : compare (p ++ t) u = .lt := by
  induction p generalizing u with
  | nil => cases h
  | cons x p ih =>
    rw [advance] at h
    split at h
    · next v hv =>
      injection h with h
      rw [← h, cons_append, List.compare_cons_cons, Std.ReflOrd.compare_self]
      exact ih hv
    · split at h
      · cases h
      · next hx =>
        injection h with h
        rw [← h, cons_append, List.compare_cons_cons, hnext x hx]
        rfl

end ScratchBird.Lib
