import ScratchBird.Platform.HeldLatchOrder

/-!
# Deadlocks stay within a class

A thread's list has the latches it holds, one entry for each grant, except in the
moment between a grant and its linking. In that moment it waits for nothing. So a
thread that waits has passed the order check with the whole of what it holds, and
what it holds is of no higher class than what it waits for. Along a chain of threads,
each waiting for what the next one holds, the classes can only rise, and around a
cycle they cannot rise at all.
-/

namespace ScratchBird.HeldLatchOrder

open Function CheckedModeLatch

variable {s s' : System} {thread : Nat} {latch : Latch} {mode : Mode} {g : Grant}
  {grants : List Grant}

theorem heldOrderConflict_eq_none {held : List Latch} {requested : LatchClass} :
    heldOrderConflict held requested = none ↔
      ∀ m ∈ held, m.latchClass.ctorIdx ≤ requested.ctorIdx := by
  simp [heldOrderConflict]

def grantsOf (grants : List Grant) (thread : Nat) : List Latch :=
  (grants.filter (·.thread = thread)).map (·.latch)

def Thread.listed (t : Thread) : List Latch :=
  match t.phase with
  | .granted latch => latch :: t.held
  | _ => t.held

/-- The list is exact, and a thread that waits holds nothing of a higher class. -/
structure Thread.Keeps (t : Thread) (grants : List Latch) : Prop where
  exact : grants.Perm t.listed
  below : ∀ latch mode, t.phase = .waiting latch mode →
    ∀ m ∈ t.held, m.latchClass.ctorIdx ≤ latch.latchClass.ctorIdx

def Listed (s : System) : Prop := ∀ thread, (s.threads thread).Keeps (grantsOf s.grants thread)

/-- A step moves one thread, and no grants but that thread's. -/
theorem Listed.update (h : Listed s) {t : Thread} (ht : t.Keeps (grantsOf grants thread))
    (hothers : ∀ u ≠ thread, (grantsOf grants u).Perm (grantsOf s.grants u)) :
    Listed ⟨grants, update s.threads thread t⟩ := by
  intro u
  by_cases hu : u = thread
  · subst hu
    simpa using ht
  · simp only [update_of_ne hu]
    exact ⟨(hothers u hu).trans (h u).exact, (h u).below⟩

theorem Listed.running (h : Listed s) (hphase : (s.threads thread).phase = .running) :
    (grantsOf s.grants thread).Perm (s.threads thread).held := by
  have hexact := (h thread).exact
  rwa [Thread.listed, hphase] at hexact

theorem Listed.enter (h : Listed s) (hphase : (s.threads thread).phase = .running)
    (hnone : heldOrderConflict (s.threads thread).held latch.latchClass = none) :
    Listed (enter s thread latch mode) := by
  have hexact := h.running hphase
  refine h.update ⟨hexact, ?_⟩ (fun _ _ => .refl _)
  intro l m hl
  cases hl
  exact heldOrderConflict_eq_none.mp hnone

theorem Listed.drop (h : Listed s) (hphase : (s.threads g.thread).phase = .running)
    (hg : g ∈ s.grants) : Listed (drop s g.thread g) := by
  have hsplit : ∀ u, (grantsOf (g :: s.grants.erase g) u).Perm (grantsOf s.grants u) :=
    fun u => ((List.perm_cons_erase hg).symm.filter _).map _
  refine h.update ⟨?_, ?_⟩ ?_
  · have hperm := (hsplit g.thread).trans (h.running hphase)
    rw [grantsOf, List.filter_cons_of_pos (by simp)] at hperm
    rw [Thread.listed, hphase]
    exact (hperm.trans (List.perm_cons_erase (hperm.subset List.mem_cons_self))).cons_inv
  · intro l m hl
    cases hl.symm.trans hphase
  · intro u hu
    have hperm := hsplit u
    rwa [grantsOf, List.filter_cons_of_neg (by simpa using Ne.symm hu)] at hperm

/-- The latch is itself on the list when the order is checked, and the gap opens
after that. -/
theorem Listed.upgradeIntent (h : Listed s) (hphase : (s.threads thread).phase = .running) :
    Listed (upgradeIntent s thread g) := by
  rw [HeldLatchOrder.upgradeIntent]
  split
  · exact h
  split
  · exact h
  next hnone =>
  split
  next hg =>
    obtain ⟨hmem, rfl, -⟩ := hg
    have hthread : (HeldLatchOrder.drop s g.thread g).threads g.thread =
        { s.threads g.thread with held := (s.threads g.thread).held.erase g.latch } :=
      update_self ..
    refine (h.drop hphase hmem).enter (by rw [hthread, hphase]) ?_
    rw [hthread, heldOrderConflict_eq_none]
    exact fun m hm => heldOrderConflict_eq_none.mp hnone m (List.mem_of_mem_erase hm)
  · exact h

theorem Listed.step (h : Listed s) {step : Step} (hstep : s.step thread step = some s') :
    Listed s' := by
  have hexact := (h thread).exact
  rw [Thread.listed] at hexact
  rw [System.step.eq_def] at hstep
  split at hstep
  next hphase =>
    cases hstep
    rw [acquire]
    split
    · exact h
    split
    · exact h
    next hnone => exact h.enter hphase hnone
  next hphase =>
    cases hstep
    exact h.upgradeIntent hphase
  next hphase =>
    cases hstep
    rw [release]
    split
    next hg =>
      obtain ⟨hmem, rfl⟩ := hg
      exact h.drop hphase hmem
    · exact h
  next latch mode hphase =>
    rw [hphase] at hexact
    rw [commit] at hstep
    split at hstep <;> cases hstep
    refine h.update ⟨?_, nofun⟩ ?_
    · rw [grantsOf, List.filter_cons_of_pos (by simp)]
      exact hexact.cons latch
    · intro u hu
      rw [grantsOf, List.filter_cons_of_neg (by simpa using Ne.symm hu)]
      exact .refl _
  next hphase =>
    cases hstep
    rw [hphase] at hexact
    exact h.update ⟨hexact, nofun⟩ (fun _ _ => .refl _)
  next hphase =>
    cases hstep
    rw [hphase] at hexact
    exact h.update ⟨hexact, nofun⟩ (fun _ _ => .refl _)
  · cases hstep

theorem listed_start : Listed {} := by
  refine fun thread => ⟨.refl _, ?_⟩
  intro latch mode hphase
  cases hphase

theorem Listed.run {steps : List (Nat × Step)} (h : Listed s)
    (hrun : steps.foldlM (fun s step => s.step step.1 step.2) s = some s') : Listed s' := by
  induction steps generalizing s with
  | nil =>
    cases hrun
    exact h
  | cons step steps ih =>
    rw [List.foldlM_cons, Option.bind_eq_bind, Option.bind_eq_some_iff] at hrun
    obtain ⟨next, hstep, hrun⟩ := hrun
    exact ih (h.step hstep) hrun

theorem Listed.le_of_waiting (h : Listed s) (hg : g ∈ s.grants)
    (hwaiting : (s.threads g.thread).phase = .waiting latch mode) :
    g.latch.latchClass.ctorIdx ≤ latch.latchClass.ctorIdx := by
  have hexact := (h g.thread).exact
  rw [Thread.listed, hwaiting] at hexact
  refine (h g.thread).below latch mode hwaiting _ (hexact.subset ?_)
  exact List.mem_map_of_mem (List.mem_filter.mpr ⟨hg, by simp⟩)

/-- In every state the threads can reach, the latches of a wait-for cycle of any
length, each thread waiting for a latch the next one holds, are of one class. -/
theorem wait_cycle_one_class (steps : List (Nat × Step)) (s : System) (hrun : run steps = some s)
    (n : Nat) (thread : Fin (n + 1) → Nat) (latch : Fin (n + 1) → Latch)
    (hcycle : ∀ i, (∃ mode, (s.threads (thread i)).phase = .waiting (latch i) mode) ∧
      ∃ g ∈ s.grants, g.latch = latch i ∧ g.thread = thread (i + 1)) :
    ∀ i j, (latch i).latchClass = (latch j).latchClass := by
  have hlisted : Listed s := listed_start.run hrun
  have hnext : ∀ i, (latch i).latchClass.ctorIdx ≤ (latch (i + 1)).latchClass.ctorIdx := by
    intro i
    obtain ⟨-, g, hg, hlatch, hthread⟩ := hcycle i
    obtain ⟨⟨mode, hwaiting⟩, -⟩ := hcycle (i + 1)
    rw [← hthread] at hwaiting
    rw [← hlatch]
    exact hlisted.le_of_waiting hg hwaiting
  have hrises : Monotone fun k => (latch (Fin.ofNat (n + 1) k)).latchClass.ctorIdx := by
    refine monotone_nat_of_le_succ fun k => ?_
    have hk : Fin.ofNat (n + 1) (k + 1) = Fin.ofNat (n + 1) k + 1 := by
      apply Fin.ext
      simp [Fin.val_add]
    rw [hk]
    exact hnext _
  -- Another round leads from any latch of the cycle to any other.
  have hle : ∀ i j, (latch i).latchClass.ctorIdx ≤ (latch j).latchClass.ctorIdx := by
    intro i j
    have hij : i.val ≤ j.val + (n + 1) := by omega
    simpa [Fin.ofNat, Nat.mod_eq_of_lt i.isLt, Nat.mod_eq_of_lt j.isLt] using hrises hij
  intro i j
  rw [← LatchClass.ofNat_ctorIdx (latch i).latchClass, Nat.le_antisymm (hle i j) (hle j i),
    LatchClass.ofNat_ctorIdx]

def pageLatch (last : UInt8) : Latch := ⟨.mode, engineUuid last, 1, .page⟩

/-- Two threads take two page latches crosswise. -/
def crossedSteps : List (Nat × Step) :=
  [(0, .acquire (pageLatch 1) .exclusiveWrite), (0, .commit), (0, .link),
   (1, .acquire (pageLatch 2) .exclusiveWrite), (1, .commit), (1, .link),
   (0, .acquire (pageLatch 2) .sharedRead), (1, .acquire (pageLatch 1) .sharedRead)]

def crossed : System := (run crossedSteps).getD {}

theorem crossed_wait_one_class : run crossedSteps = some crossed ∧
    (crossed.threads 0).phase = .waiting (pageLatch 2) .sharedRead ∧
    (crossed.threads 1).phase = .waiting (pageLatch 1) .sharedRead ∧
    (pageLatch 2).latchClass = (pageLatch 1).latchClass := by
  refine ⟨rfl, rfl, rfl, ?_⟩
  refine wait_cycle_one_class crossedSteps crossed rfl 1 Fin.val
    (fun i => if i = 0 then pageLatch 2 else pageLatch 1) ?_ 0 1
  rw [Fin.forall_fin_two]
  exact ⟨⟨⟨_, rfl⟩, ⟨_, .exclusiveWrite, _⟩, by decide, rfl, rfl⟩,
    ⟨_, rfl⟩, ⟨_, .exclusiveWrite, _⟩, by decide, rfl, rfl⟩

end ScratchBird.HeldLatchOrder
