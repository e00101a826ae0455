import ScratchBird.Lib.Refusal
import ScratchBird.Platform.CheckedModeLatch

/-!
# What the mode latch keeps

`Moves` says once what a stretch under the mutex can do, and the three parts of
the invariant are read off it. What the holders are to each other only depends on
what `Commit` found, and in place an upgrade becomes exclusive because it
tolerates nobody, so it is alone. The order of the queue is that of the ranks and
then of the arrivals, and a node that leaves does not disturb it.

The wake-up guarantee needs no history. Whatever could let the head of the queue
through notifies everyone, so a head that is parked has looked at the latch as it
is now: it was the head at its last pass and found itself not grantable, or it
would have been notified since.
-/

namespace ScratchBird.CheckedModeLatch

open Lib List

variable {latch latch' : Latch} {node : Node} {request : Request} {grant : Grant}
  {look : Look} {limit : Nat}

theorem compatible_comm (a b : Mode) : compatible a b = compatible b a := by
  cases a <;> cases b <;> rfl

/-- No mode goes with an upgrade, nor with an exclusive grant. -/
theorem not_compatible_of_upgrade (mode : Mode) :
    compatible mode .upgrade = false ∧ compatible mode .exclusiveWrite = false := by
  cases mode <;> exact ⟨rfl, rfl⟩

namespace Latch

/-- `Commit` is within reach of a call that wants this mode. -/
def Grantable (latch : Latch) (mode : Mode) : Prop :=
  latch.holderCount < latch.holderLimit ∧ latch.canGrant mode = true

/-- What may happen to the latch while one thread has the mutex. -/
inductive Moves (latch : Latch) : Latch → Prop where
  | stay : Moves latch latch
  | grant (request : Request) (hqueue : latch.queue = [])
      (hthread : latch.isRecursive request.thread = false)
      (hroom : latch.holderCount ≠ latch.holderLimit) (hmode : latch.canGrant request.mode = true) :
      Moves latch (latch.commit request)
  | enqueue (request : Request) (rank : Nat) : Moves latch (latch.enqueue request rank)
  | leave (node : Node) (result : Result) : Moves latch (latch.leave node result)
  | grantHead (node : Node) (rest : List Node) (hqueue : latch.queue = node :: rest)
      (hthread : latch.isRecursive node.thread = false) (hmode : latch.Grantable node.mode) :
      Moves latch ((latch.commit node.toRequest).leave node .acquired)
  | park (node : Node) (hopen : latch.closed = false)
      (hhead : latch.queue.head? = some node → ¬latch.Grantable node.mode) :
      Moves latch (latch.park node)
  | finish (call : Node × Result) : Moves latch (latch.finish call).2
  | release (grant : Grant) (hheld : grant ∈ latch.holders) :
      Moves latch (latch.releaseLocked grant)
  | promote (grant : Grant) (hheld : grant ∈ latch.holders)
      (hmode : grant.mode = .upgrade) : Moves latch (latch.promote grant)
  | close : Moves latch latch.close
  | wake : Moves latch latch.notify

theorem preflight_eq_none (h : latch.preflight request look = none) :
    latch.isRecursive request.thread = false ∧ latch.closed = false := by
  rw [preflight, guard_eq_none_iff, terminal, guard_eq_none_iff] at h
  exact ⟨Bool.not_eq_true _ ▸ h.1, Bool.not_eq_true _ ▸ h.2.1⟩

theorem moves_tryAcquire : latch.Moves (latch.tryAcquire request look).2 := by
  fun_cases latch.tryAcquire request look with
  | case5 _ hpreflight hroom hfree =>
    simp only [Bool.or_eq_true, Bool.not_eq_true', not_or, Bool.not_eq_false,
      List.isEmpty_iff] at hfree
    exact .grant request hfree.1 (preflight_eq_none hpreflight).1 hroom hfree.2
  | _ => exact .stay

theorem moves_acquire {rank : Nat} : latch.Moves (latch.acquire request rank look).2 := by
  fun_cases latch.acquire request rank look with
  | case4 _ hpreflight _ hgrant =>
    simp only [Bool.and_eq_true, List.isEmpty_iff, decide_eq_true_eq] at hgrant
    exact .grant request hgrant.1.1 (preflight_eq_none hpreflight).1 hgrant.1.2.ne hgrant.2
  | case6 => exact .enqueue request rank
  | _ => exact .stay

theorem moves_pass : latch.Moves (latch.pass node look) := by
  rw [pass]
  split
  · exact .leave node _
  next hpreflight =>
    have hlook := preflight_eq_none hpreflight
    split
    · next hgrant =>
      simp only [Bool.and_eq_true, decide_eq_true_eq] at hgrant
      obtain ⟨rest, hqueue⟩ := List.head?_eq_some_iff.mp hgrant.1.1
      exact .grantHead node rest hqueue hlook.1 ⟨hgrant.1.2, hgrant.2⟩
    · next hgrant =>
      refine .park node hlook.2 fun hhead hmode => hgrant ?_
      simp only [Bool.and_eq_true, decide_eq_true_eq]
      exact ⟨⟨hhead, hmode.1⟩, hmode.2⟩

theorem step_moves {step : Step} (h : latch.step step = some latch') : latch.Moves latch' := by
  cases step with
  | tryAcquire request look =>
    obtain ⟨-, ⟨⟩⟩ := Option.ite_none_right_eq_some.mp h
    exact moves_tryAcquire
  | acquire request rank look =>
    obtain ⟨-, ⟨⟩⟩ := Option.ite_none_right_eq_some.mp h
    exact moves_acquire
  | pass thread look =>
    obtain ⟨node, -, rfl⟩ := Option.map_eq_some_iff.mp h
    exact moves_pass
  | waitFailed thread =>
    obtain ⟨node, -, rfl⟩ := Option.map_eq_some_iff.mp h
    exact .leave node .failed
  | finish thread =>
    obtain ⟨call, -, rfl⟩ := Option.map_eq_some_iff.mp h
    exact .finish call
  | release thread record owner =>
    obtain ⟨-, ⟨⟩⟩ := Option.ite_none_right_eq_some.mp h
    fun_cases latch.release thread record owner with
    | case1 => exact .stay
    | case2 grant hgrant => exact .release _ (List.mem_of_find?_eq_some hgrant)
  | releaseIntentForUpgrade thread record deadline owner look =>
    obtain ⟨-, ⟨⟩⟩ := Option.ite_none_right_eq_some.mp h
    fun_cases latch.releaseIntentForUpgrade thread record deadline owner look with
    | case5 grant hgrant => exact .release _ (List.mem_of_find?_eq_some hgrant)
    | _ => exact .stay
  | promoteUpgradeToExclusive thread record deadline owner look =>
    obtain ⟨-, ⟨⟩⟩ := Option.ite_none_right_eq_some.mp h
    fun_cases latch.promoteUpgradeToExclusive thread record deadline owner look with
    | case4 grant hgrant hmode =>
      exact .promote _ (List.mem_of_find?_eq_some hgrant) (not_not.mp hmode)
    | _ => exact .stay
  | close =>
    cases h
    exact .close
  | wake =>
    cases h
    exact .wake

/-! ### The holders -/

structure Held (limit : Nat) (latch : Latch) : Prop where
  fixed : latch.holderLimit = limit
  count : latch.holderCount = latch.holders.length
  room : latch.holderCount ≤ limit
  modes : latch.holders.Pairwise fun a b => compatible a.mode b.mode
  threads : (latch.holders.map (·.thread)).Nodup

theorem Held.commit (h : Held limit latch) (hroom : latch.holderCount ≠ latch.holderLimit)
    (hthread : latch.isRecursive request.thread = false)
    (hmode : latch.canGrant request.mode = true) : Held limit (latch.commit request) where
  fixed := h.fixed
  count := congrArg (· + 1) h.count
  room := Nat.lt_of_le_of_ne h.room (h.fixed ▸ hroom)
  modes := pairwise_cons.mpr ⟨List.all_eq_true.mp hmode, h.modes⟩
  threads := by
    refine nodup_cons.mpr ⟨fun hmem => ?_, h.threads⟩
    obtain ⟨holder, hholder, heq⟩ := mem_map.mp hmem
    exact absurd hthread
      (Bool.not_eq_false _ ▸ any_eq_true.mpr ⟨holder, hholder, beq_iff_eq.mpr heq⟩)

section

variable (h : Held limit latch) (hheld : grant ∈ latch.holders)
include h hheld

theorem Held.release : Held limit (latch.releaseLocked grant) where
  fixed := h.fixed
  count := by
    show latch.holderCount - 1 = (latch.holders.erase grant).length
    rw [List.length_erase_of_mem hheld, h.count]
  room := Nat.le_trans (Nat.sub_le ..) h.room
  modes := h.modes.sublist List.erase_sublist
  threads := h.threads.sublist (List.erase_sublist.map _)

/-- An upgrade is the only grant. -/
theorem Held.alone (hmode : grant.mode = .upgrade) : latch.holders = [grant] := by
  obtain ⟨before, after, hholders⟩ := List.append_of_mem hheld
  have hmodes := hholders ▸ h.modes
  obtain ⟨-, hafter, hbefore⟩ := pairwise_append.mp hmodes
  have hnone : ∀ other : Grant, ¬compatible other.mode grant.mode = true := by
    intro other
    rw [hmode, (not_compatible_of_upgrade other.mode).1]
    exact Bool.false_ne_true
  obtain rfl : before = [] := List.eq_nil_iff_forall_not_mem.mpr fun other hother =>
    hnone other (hbefore other hother grant mem_cons_self)
  obtain rfl : after = [] := List.eq_nil_iff_forall_not_mem.mpr fun other hother =>
    hnone other (compatible_comm .. ▸ (pairwise_cons.mp hafter).1 other hother)
  exact hholders

theorem Held.promote (hmode : grant.mode = .upgrade) :
    (latch.promote grant).holders = [{ grant with mode := .exclusiveWrite }] := by
  have halone := h.alone hheld hmode
  rw [Latch.promote, halone, map_singleton, if_pos rfl]

end

theorem Moves.held (hmove : latch.Moves latch') (h : Held limit latch) : Held limit latch' := by
  cases hmove with
  | grant request _ hthread hroom hmode => exact h.commit hroom hthread hmode
  | grantHead node _ _ hthread hmode =>
    obtain ⟨hfixed, hcount, hroom, hmodes, hthreads⟩ := Held.commit h hmode.1.ne hthread hmode.2
    exact ⟨hfixed, hcount, hroom, hmodes, hthreads⟩
  | release grant hheld => exact h.release hheld
  | promote grant hheld hmode =>
    have hholders := h.promote hheld hmode
    refine ⟨h.fixed, ?_, h.room, ?_, ?_⟩
    · rw [hholders]
      have halone := h.alone hheld hmode
      exact h.count.trans (halone ▸ rfl)
    · rw [hholders]
      exact pairwise_singleton _ _
    · rw [hholders]
      exact nodup_singleton _
  | stay | enqueue | leave | park | finish | close | wake =>
    exact { h with }

/-! ### The queue -/

end Latch

/-- One call goes before another in the queue. -/
def Node.Before (a b : Node) : Prop := a.rank < b.rank ∨ a.rank = b.rank ∧ a.arrival < b.arrival

namespace Latch

structure Queued (latch : Latch) : Prop where
  order : latch.queue.Pairwise Node.Before
  arrived : ∀ node ∈ latch.queue, node.arrival < latch.arrivals

/-- A change of phase keeps places. -/
theorem Queued.map {f : Node → Node} (h : Queued latch) (hrank : ∀ node, (f node).rank = node.rank)
    (harrival : ∀ node, (f node).arrival = node.arrival) :
    Queued { latch with queue := latch.queue.map f } where
  order := by
    refine pairwise_map.mpr (h.order.imp fun hbefore => ?_)
    rw [Node.Before, hrank, hrank, harrival, harrival]
    exact hbefore
  arrived := by
    intro node hmem
    obtain ⟨old, hold, rfl⟩ := mem_map.mp hmem
    exact (harrival old).symm ▸ h.arrived old hold

theorem Queued.notify (h : Queued latch) : Queued latch.notify :=
  h.map (fun node => by split <;> rfl) (fun node => by split <;> rfl)

theorem Queued.erase (h : Queued latch) (node : Node) :
    Queued { latch with queue := latch.queue.erase node } where
  order := h.order.sublist List.erase_sublist
  arrived := fun other hother => h.arrived other (List.mem_of_mem_erase hother)

/-- The last of its rank to arrive is put behind all of its rank. -/
theorem pairwise_insert {queue : List Node} (h : queue.Pairwise Node.Before)
    (hlast : ∀ other ∈ queue, other.arrival < node.arrival) :
    (List.orderedInsert (·.rank < ·.rank) node queue).Pairwise Node.Before := by
  induction queue with
  | nil => exact pairwise_singleton _ _
  | cons first rest ih =>
    obtain ⟨hfirst, hrest⟩ := pairwise_cons.mp h
    obtain ⟨hlate, hlast⟩ := forall_mem_cons.mp hlast
    rw [List.orderedInsert_cons]
    split
    · next hrank =>
      refine pairwise_cons.mpr ⟨forall_mem_cons.mpr ⟨.inl hrank, ?_⟩, h⟩
      intro other hother
      exact .inl (hrank.trans_le ((hfirst other hother).elim Nat.le_of_lt (·.1.le)))
    · next hrank =>
      refine pairwise_cons.mpr ⟨fun other hother => ?_, ih hrest hlast⟩
      rcases (List.mem_orderedInsert _).mp hother with rfl | hother
      · exact (Nat.le_of_not_lt hrank).lt_or_eq.imp_right fun heq => ⟨heq, hlate⟩
      · exact hfirst other hother

theorem Moves.queued (hmove : latch.Moves latch') (h : Queued latch) : Queued latch' := by
  cases hmove with
  | enqueue request rank =>
    refine ⟨pairwise_insert h.order ?_, fun other hother => ?_⟩
    · exact h.arrived
    rcases (List.mem_orderedInsert _).mp hother with rfl | hother
    · exact Nat.lt_succ_self _
    · exact Nat.lt_succ_of_lt (h.arrived other hother)
  | leave node | grantHead node =>
    obtain ⟨horder, harrived⟩ := (h.erase node).notify
    exact ⟨horder, harrived⟩
  | park node => exact h.map (fun node => by split <;> rfl) (fun node => by split <;> rfl)
  | release | close | wake =>
    obtain ⟨horder, harrived⟩ := h.notify
    exact ⟨horder, harrived⟩
  | stay | grant | finish | promote => exact ⟨h.order, h.arrived⟩

/-! ### Wake-ups -/

/-- A head of the queue that is parked has nothing to wait for but a
notification. -/
def Awake (latch : Latch) : Prop :=
  ∀ node rest, latch.queue = node :: rest → node.phase = .parked →
    latch.closed = false ∧ ¬latch.Grantable node.mode

theorem awake_notify : latch.notify.Awake := by
  intro node rest hqueue hparked
  obtain ⟨old, olds, -, rfl, -⟩ := List.map_eq_cons_iff.mp hqueue
  split at hparked
  · exact absurd hparked nofun
  · next hphase => exact absurd hparked hphase

theorem Moves.awake (hmove : latch.Moves latch') (hheld : Held limit latch)
    (h : Awake latch) : Awake latch' := by
  cases hmove with
  | stay | finish => exact h
  | grant request hqueue =>
    intro node rest hcons
    exact absurd (hqueue.symm.trans hcons) (cons_ne_nil _ _).symm
  | enqueue request rank =>
    -- A call that is put in front is still registering.
    intro node rest hcons hparked
    rw [Latch.enqueue] at hcons
    rcases hqueue : latch.queue with _ | ⟨first, others⟩
    · rw [hqueue] at hcons
      obtain ⟨rfl, -⟩ := List.cons.inj hcons
      exact absurd hparked nofun
    · rw [hqueue, List.orderedInsert_cons] at hcons
      split at hcons
      · obtain ⟨rfl, -⟩ := List.cons.inj hcons
        exact absurd hparked nofun
      · obtain ⟨rfl, -⟩ := List.cons.inj hcons
        exact h first others hqueue hparked
  | park other hopen hhead =>
    intro node rest hcons hparked
    obtain ⟨old, olds, hqueue, rfl, -⟩ := List.map_eq_cons_iff.mp hcons
    split at hparked
    · next heq =>
      rw [if_pos heq]
      exact ⟨hopen, heq ▸ hhead (heq ▸ hqueue ▸ rfl)⟩
    · next hne =>
      rw [if_neg hne]
      exact h old olds hqueue hparked
  | promote grant hgrant hmode =>
    intro node rest hcons hparked
    refine ⟨(h node rest hcons hparked).1, fun hgrantable => ?_⟩
    have hall := hgrantable.2
    rw [canGrant, hheld.promote hgrant hmode, List.all_cons,
      (not_compatible_of_upgrade _).2] at hall
    cases hall
  | leave | grantHead | release | close | wake => exact awake_notify

end Latch

open Latch

theorem run_invariant {steps : List Step} (hheld : Held limit latch)
    (hqueued : Queued latch) (hawake : Awake latch)
    (h : steps.foldlM Latch.step latch = some latch') :
    Held limit latch' ∧ Queued latch' ∧ Awake latch' := by
  induction steps generalizing latch with
  | nil =>
    cases h
    exact ⟨hheld, hqueued, hawake⟩
  | cons step rest ih =>
    obtain ⟨next, hstep, h⟩ := Option.bind_eq_some_iff.mp h
    have hmove := step_moves hstep
    exact ih (hmove.held hheld) (hmove.queued hqueued) (hmove.awake hheld hawake) h

/-- What a new holder was before the step that made it one. -/
theorem Latch.Moves.granted (hmove : latch.Moves latch')
    (hnew : grant ∈ latch'.holders) (hold : ∀ held ∈ latch.holders, held.record ≠ grant.record) :
    latch.queue = [] ∨ ∃ node rest, latch.queue = node :: rest ∧ node.toGrant = grant := by
  cases hmove with
  | grant request hqueue => exact .inl hqueue
  | grantHead node rest hqueue =>
    rcases mem_cons.mp hnew with rfl | hheld
    · exact .inr ⟨node, rest, hqueue, rfl⟩
    · exact absurd rfl (hold grant hheld)
  | release other => exact absurd rfl (hold grant (List.mem_of_mem_erase hnew))
  | promote other =>
    obtain ⟨held, hheld, heq⟩ := mem_map.mp hnew
    refine absurd ?_ (hold held hheld)
    rw [← heq]
    split <;> rfl
  | stay | enqueue | leave | park | finish | close | wake => exact absurd rfl (hold grant hnew)

/-- Whatever the threads do, the holders tolerate each other in both directions,
are within the limit and of different threads; the queue is in the order of ranks
and then of arrivals; whoever becomes a holder found the queue empty or was its
head; and when every waiter is parked with no notification to come, the head
cannot be granted and the latch is open. -/
theorem latch_keeps_order {holderLimit waiterLimit : Nat} {steps : List Step}
    (h : steps.foldlM Latch.step { holderLimit, waiterLimit } = some latch) :
    (latch.holders.Pairwise fun a b => compatible a.mode b.mode ∧ compatible b.mode a.mode) ∧
      latch.holders.length ≤ holderLimit ∧ (latch.holders.map (·.thread)).Nodup ∧
      latch.queue.Pairwise Node.Before ∧ (∀ step latch', latch.step step = some latch' →
        ∀ grant ∈ latch'.holders, (∀ held ∈ latch.holders, held.record ≠ grant.record) →
          latch.queue = [] ∨ ∃ node rest, latch.queue = node :: rest ∧ node.toGrant = grant) ∧
      ∀ node rest, latch.queue = node :: rest → (∀ waiter ∈ latch.queue, waiter.phase = .parked) →
          latch.closed = false ∧ ¬latch.Grantable node.mode := by
  have hstart : Held holderLimit { holderLimit, waiterLimit } :=
    ⟨rfl, rfl, Nat.zero_le _, List.Pairwise.nil, nodup_nil⟩
  obtain ⟨hheld, hqueued, hawake⟩ := run_invariant hstart
    ⟨List.Pairwise.nil, forall_mem_nil _⟩ (fun _ _ hqueue => nomatch hqueue) h
  refine ⟨hheld.modes.imp fun hmode => ⟨hmode, compatible_comm .. ▸ hmode⟩,
    hheld.count ▸ hheld.room, hheld.threads, hqueued.order, ?_, ?_⟩
  · intro step latch' hstep grant hnew hold
    exact (step_moves hstep).granted hnew hold
  · intro node rest hqueue hparked
    exact hawake node rest hqueue (hparked node (hqueue ▸ mem_cons_self))

/-- A writer parks behind a reader. -/
def parkedWriter : List Step :=
  [.tryAcquire { record := 0, mode := .sharedRead, thread := 1 } {},
    .acquire { record := 1, mode := .exclusiveWrite, thread := 2 } 0 {}, .pass 2 {}]

theorem parkedWriter_waits :
    ∃ latch, parkedWriter.foldlM Latch.step { holderLimit := 2, waiterLimit := 2 } = some latch ∧
      latch.queue.map (·.phase) = [.parked] ∧ latch.closed = false := by
  refine ⟨_, rfl, rfl, ?_⟩
  have hrun : parkedWriter.foldlM Latch.step { holderLimit := 2, waiterLimit := 2 } = some _ := rfl
  exact ((latch_keeps_order hrun).2.2.2.2.2 _ _ rfl (by decide)).1

end ScratchBird.CheckedModeLatch
