import Mathlib.Data.List.Induction
import Mathlib.Data.List.Sort

/-!
# Logs of overwrites

A log is a list of records, each overwriting one key with a value or with
nothing. Replaying it leaves at a key what the last record on that key wrote, so
two logs leave the same at a key as soon as they agree on the records there.
That is how a log is compared with a rearrangement of it: `flatMap_classes`
says that gathering the records class by class changes nothing if they already
stood in the order of the classes, and it is applied key by key, where the order
of one key's records is all that matters.
-/

namespace ScratchBird.Lib

open List

variable {α κ β γ : Type} [DecidableEq κ]

/-- What a log leaves: a table from keys to values. -/
def replay (key : α → κ) (value : α → Option β) (log : List α) : κ → Option β :=
  log.foldl (fun table a k => if key a = k then value a else table k) fun _ => none

section

variable {key : α → κ} {value : α → Option β} {log : List α} {k : κ}

theorem replay_append_singleton (a : α) : replay key value (log ++ [a]) k =
      if key a = k then value a else replay key value log k := by
  rw [replay, foldl_append]
  rfl

theorem replay_eq_getLast :
    replay key value log k = ((log.filter fun a => decide (key a = k)).getLast?).bind value := by
  induction log using List.reverseRecOn with
  | nil => rfl
  | append_singleton log a ih =>
    rw [replay_append_singleton, filter_append]
    by_cases h : key a = k
    · rw [if_pos h, List.filter_cons_of_pos (by simpa using h), List.filter_nil, getLast?_concat]
      rfl
    · rw [if_neg h, filter_cons_of_neg (by simpa using h), List.filter_nil, append_nil, ih]

end

/-- Records of one kind that all stand before the others are a first part of the
list. -/
theorem filter_append_filter_not {p : α → Bool} {l : List α}
    (h : l.Pairwise fun a b => p b = true → p a = true) :
    l.filter p ++ l.filter (fun a => !p a) = l := by
  induction l with
  | nil => rfl
  | cons a l ih =>
    rw [pairwise_cons] at h
    by_cases ha : p a = true
    · rw [List.filter_cons_of_pos ha, filter_cons_of_neg (by simp [ha]), cons_append, ih h.2]
    · have hnone : l.filter p = [] := by
        rw [filter_eq_nil_iff]
        intro b hb hpb
        exact ha (h.1 b hb hpb)
      have hall : l.filter (fun a => !p a) = l := by
        rw [List.filter_eq_self]
        intro b hb
        have : ¬p b = true := fun hpb => ha (h.1 b hb hpb)
        simpa using this
      rw [filter_cons_of_neg ha, List.filter_cons_of_pos (by simpa using ha), hnone, hall]
      rfl

/-- Gathering the classes in their order gives the list back, if it already
follows that order. -/
theorem flatMap_classes [DecidableEq γ] {cls : α → γ} {r : γ → γ → Prop}
    (hasymm : ∀ c d, r c d → ¬r d c) {classes : List γ} {l : List α}
    (hclasses : classes.Pairwise r) (hmem : ∀ a ∈ l, cls a ∈ classes)
    (hl : l.Pairwise fun a b => cls a = cls b ∨ r (cls a) (cls b)) :
    (classes.flatMap fun c => l.filter fun a => decide (cls a = c)) = l := by
  induction classes generalizing l with
  | nil =>
    cases l with
    | nil => rfl
    | cons a l => exact absurd (hmem a mem_cons_self) not_mem_nil
  | cons c classes ih =>
    rw [pairwise_cons] at hclasses
    have hfirst : l.Pairwise fun a b => decide (cls b = c) = true → decide (cls a = c) = true := by
      refine hl.imp_of_mem ?_
      intro a b ha _ hab hb
      rw [decide_eq_true_eq] at hb ⊢
      rcases hab with heq | hr
      · rw [heq, hb]
      · rcases mem_cons.mp (hmem a ha) with hac | hac
        · exact hac
        · rw [hb] at hr
          exact absurd hr (hasymm _ _ (hclasses.1 _ hac))
    -- The other classes only see the records the first one leaves over.
    have hrest : (classes.flatMap fun d =>
        (l.filter fun a => !decide (cls a = c)).filter fun a => decide (cls a = d)) =
        classes.flatMap fun d => l.filter fun a => decide (cls a = d) := by
      refine flatMap_congr ?_
      intro d hd
      rw [filter_filter]
      refine filter_congr ?_
      intro a _
      by_cases had : cls a = d
      · have hdc : d ≠ c := by
          intro hdc
          have hcd : r c d := hclasses.1 d hd
          rw [hdc] at hcd
          exact hasymm c c hcd hcd
        simp [had, hdc]
      · simp [had]
    rw [flatMap_cons, ← hrest, ih hclasses.2 ?_ (hl.filter _)]
    · exact filter_append_filter_not hfirst
    · intro a ha
      rw [mem_filter] at ha
      rcases mem_cons.mp (hmem a ha.1) with hac | hac
      · exact absurd hac (by simpa using ha.2)
      · exact hac

/-- Sorting an ascending list downwards turns it round. -/
theorem insertionSort_eq_reverse {f : α → Nat} {l : List α} (h : l.Pairwise fun a b => f a < f b) :
    l.insertionSort (fun a b => f a ≥ f b) = l.reverse := by
  have hinsert : ∀ (a : α) (m : List α), (∀ b ∈ m, f a < f b) →
      m.orderedInsert (fun a b => f a ≥ f b) a = m ++ [a] := by
    intro a m hm
    induction m with
    | nil => rfl
    | cons b m ih =>
      rw [List.orderedInsert_cons, if_neg, ih (forall_mem_cons.mp hm).2]
      · rfl
      · have := hm b mem_cons_self
        omega
  induction l with
  | nil => rfl
  | cons a l ih =>
    rw [pairwise_cons] at h
    rw [List.insertionSort_cons, ih h.2, List.reverse_cons]
    exact hinsert a _ fun b hb => h.1 b (mem_reverse.mp hb)

end ScratchBird.Lib
