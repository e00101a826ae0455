import ScratchBird.Proofs.LockWait

/-!
# Who is woken

A wait is due when it is the first of its resource and no grant of another owner
stands against it. `NoLostWakeup` says that nobody in the queue is due.

A drain establishes it from any state, since it ends with a pass that grants
nothing; its fuel is enough because every other pass takes a wait off the map. A
new grant makes nobody due, and a new wait is blocked. What is left are the calls
that take a wait off the queue and do not drain: a cancellation, and a deadlock
search that picks a victim. They lose a wakeup exactly when the wait that moves
up is due.
-/

namespace ScratchBird.Mga

open Lib List

variable {s s' s'' : MGALockWaitLifecycle} {request : MGALockRequest} {w w' u v : WaitRecord}
  {id waitId key : String} {now fuel : Nat} {order : List String}

namespace MGALockWaitLifecycle

variable {queue : List String}

/-- A grant of another owner on the resource stands against the wait. -/
def Blocked (s : MGALockWaitLifecycle) (w : WaitRecord) : Prop :=
  ∃ id g, s.grants.lookup id = some g ∧ g.resourceKey = w.resourceKey ∧
    ¬(w.request.ownerUuid = g.grant.ownerUuid ∧ w.request.ownerKind = g.grant.ownerKind) ∧
    mgaLockModesCompatible w.request.mode g.grant.grantedMode = false

/-- No wait for the resource was queued earlier. -/
def First (s : MGALockWaitLifecycle) (w : WaitRecord) : Prop :=
  ∀ id v, s.waits.lookup id = some v → v.resourceKey = w.resourceKey →
    w.queueSequence ≤ v.queueSequence

def NoLostWakeup (s : MGALockWaitLifecycle) : Prop :=
  ∀ id w, s.waits.lookup id = some w → s.First w → s.Blocked w

/-! ## How the code tells -/

theorem blocksRequest_iff {g : GrantRecord} :
    blocksRequest w.request w.resourceKey g = true ↔ g.resourceKey = w.resourceKey ∧
        ¬(w.request.ownerUuid = g.grant.ownerUuid ∧ w.request.ownerKind = g.grant.ownerKind) ∧
        mgaLockModesCompatible w.request.mode g.grant.grantedMode = false := by
  simp only [blocksRequest, MGALockRequest.sameOwner, Bool.and_eq_true, beq_iff_eq,
    Bool.not_eq_true', Bool.and_eq_false_iff, beq_eq_false_iff_ne, not_and_or, and_assoc]

theorem blocked_iff : s.Blocked w ↔ blockingGrants s.grants w.request w.resourceKey ≠ [] := by
  rw [Ne, blockingGrants_eq_nil_iff]
  simp only [not_forall, Bool.not_eq_false, blocksRequest_iff, exists_prop]
  exact Iff.rfl

theorem hasEarlierWaitForResource_iff {waits : Map String WaitRecord} :
    hasEarlierWaitForResource order waits w = true ↔ ∃ i ∈ order.takeWhile (· ≠ w.wait.waitId), ∃ v,
        waits.lookup i = some v ∧ v.resourceKey = w.resourceKey := by
  induction order with
  | nil => simp [hasEarlierWaitForResource]
  | cons i rest ih =>
    rw [hasEarlierWaitForResource]
    by_cases hid : i = w.wait.waitId
    · rw [if_pos hid, List.takeWhile_cons_of_neg (by simpa using hid)]
      simp
    · rw [if_neg hid, List.takeWhile_cons_of_pos (by simpa using hid)]
      simp only [mem_cons, exists_eq_or_imp]
      cases hlookup : waits.lookup i with
      | none => simp [ih]
      | some v =>
        dsimp only
        by_cases hkey : v.resourceKey = w.resourceKey
        · simp [hkey]
        · rw [if_neg hkey, ih]
          simp [hkey]

theorem first_iff (h : Queued s) (hw : s.waits.lookup id = some w) :
    s.First w ↔ hasEarlierWaitForResource s.waitOrder s.waits w = false := by
  have hmem : id ∈ s.waitOrder := by
    rw [h.listed id, hw]
    rfl
  obtain ⟨earlier, later, horder, hnot⟩ := List.eq_append_cons_of_mem hmem
  have htake : s.waitOrder.takeWhile (· ≠ w.wait.waitId) = earlier := by
    rw [horder, h.waitId id w hw, List.takeWhile_append_of_pos,
      List.takeWhile_cons_of_neg (by simp), append_nil]
    intro i hi
    have hne : i ≠ id := fun heq => hnot (heq ▸ hi)
    simpa using hne
  have hordered := h.ordered
  rw [horder, pairwise_append, pairwise_cons] at hordered
  rw [← Bool.not_eq_true, hasEarlierWaitForResource_iff, htake]
  constructor
  · rintro hfirst ⟨i, hi, v, hv, hkey⟩
    have hbefore := hordered.2.2 i hi id mem_cons_self v w hv hw
    have hle := hfirst i v hv hkey
    omega
  · intro hnone i v hv hkey
    have hi : i ∈ earlier ++ id :: later := by
      rw [← horder, h.listed i, hv]
      rfl
    rcases mem_append.mp hi with hi | hi
    · exact absurd ⟨i, hi, v, hv, hkey⟩ hnone
    rcases mem_cons.mp hi with rfl | hi
    · rw [hw] at hv
      rw [Option.some.inj hv]
    · exact Nat.le_of_lt (hordered.2.1.1 i hi w v hw hv)

/-- The waits that are due. -/
def lostWakeups (s : MGALockWaitLifecycle) : List String :=
  s.waitOrder.filter fun id =>
    ((s.waits.lookup id).map fun w =>
      !hasEarlierWaitForResource s.waitOrder s.waits w &&
        (blockingGrants s.grants w.request w.resourceKey).isEmpty).getD false

theorem noLostWakeup_iff_lostWakeups (h : Queued s) : s.NoLostWakeup ↔ s.lostWakeups = [] := by
  rw [lostWakeups, filter_eq_nil_iff]
  constructor
  · intro hnone id hid
    obtain ⟨w, hw⟩ := Option.isSome_iff_exists.mp ((h.listed id).mp hid)
    rw [hw, Option.map_some, Option.getD_some, Bool.and_eq_true,
      Bool.not_eq_true', ← first_iff h hw, List.isEmpty_iff]
    rintro ⟨hfirst, hfree⟩
    exact blocked_iff.mp (hnone id w hw hfirst) hfree
  · intro hnone id w hw hfirst
    have hid : id ∈ s.waitOrder := by
      rw [h.listed id, hw]
      rfl
    have hdue := hnone id hid
    rw [hw, Option.map_some, Option.getD_some, Bool.and_eq_true,
      Bool.not_eq_true', ← first_iff h hw, List.isEmpty_iff] at hdue
    exact blocked_iff.mpr fun hfree => hdue ⟨hfirst, hfree⟩

/-! ## The drain -/

theorem SameQueue.refl (s : MGALockWaitLifecycle) : SameQueue s s :=
  ⟨rfl, rfl, fun _ w hw => ⟨w, hw, rfl, rfl, rfl, rfl⟩, fun _ w hw => ⟨w, hw, rfl, rfl, rfl, rfl⟩⟩

theorem SameWait.trans (h : SameWait u v) (h' : SameWait v w) : SameWait u w :=
  ⟨h.request.trans h'.request, h.resourceKey.trans h'.resourceKey,
    h.queueSequence.trans h'.queueSequence, h.waitId.trans h'.waitId⟩

section

variable (h : SameQueue s s')
include h

theorem SameQueue.trans (h' : SameQueue s' s'') : SameQueue s s'' := by
  refine ⟨h'.grants.trans h.grants, h'.waitOrder.trans h.waitOrder, ?_, ?_⟩
  · intro id w hw
    obtain ⟨w', hw', hsame⟩ := h.forward id w hw
    obtain ⟨w'', hw'', hsame'⟩ := h'.forward id w' hw'
    exact ⟨w'', hw'', hsame.trans hsame'⟩
  · intro id w'' hw''
    obtain ⟨w', hw', hsame'⟩ := h'.backward id w'' hw''
    obtain ⟨w, hw, hsame⟩ := h.backward id w' hw'
    exact ⟨w, hw, hsame.trans hsame'⟩

theorem SameQueue.first (hsame : SameWait w w') (hfirst : s.First w) : s'.First w' := by
  intro id v' hv' hkey
  obtain ⟨v, hv, hvv⟩ := h.backward id v' hv'
  rw [← hsame.queueSequence, ← hvv.queueSequence]
  exact hfirst id v hv (by rw [hvv.resourceKey, hkey, hsame.resourceKey])

theorem SameQueue.first_symm (hsame : SameWait w w') (hfirst : s'.First w') : s.First w := by
  intro id v hv hkey
  obtain ⟨v', hv', hvv⟩ := h.forward id v hv
  rw [hsame.queueSequence, hvv.queueSequence]
  exact hfirst id v' hv' (by rw [← hvv.resourceKey, hkey, hsame.resourceKey])

theorem SameQueue.blocked_iff (hsame : SameWait w w') : s.Blocked w ↔ s'.Blocked w' := by
  rw [Blocked, Blocked, h.grants, hsame.request, hsame.resourceKey]

end

/-- The wait is blocked, and its list of blockers is the present one. -/
def Refreshed (s : MGALockWaitLifecycle) (w : WaitRecord) : Prop :=
  w.wait.blockedByGrantIds = blockingGrants s.grants w.request w.resourceKey ∧ s.Blocked w

/-- A pass that grants nothing finds the first waits blocked and writes their
lists anew; the others are as they were. -/
theorem drainScan_idle (hs : Queued s) (h : drainScan now queue s = (s', false)) :
    SameQueue s s' ∧ ∀ id w, s'.waits.lookup id = some w →
      s.Refreshed w ∨ s.waits.lookup id = some w ∧ (id ∈ queue → ¬s.First w) := by
  fun_induction drainScan now queue s with
  | case1 =>
    cases h
    exact ⟨SameQueue.refl s', fun id w hw => .inr ⟨hw, fun hid => absurd hid not_mem_nil⟩⟩
  | case2 waitId rest s hnone ih =>
    obtain ⟨hsame, hrest⟩ := ih hs h
    refine ⟨hsame, fun id w hw => (hrest id w hw).imp_right fun ⟨hw, hlater⟩ => ⟨hw, ?_⟩⟩
    refine fun hid => hlater ((mem_cons.mp hid).resolve_left ?_)
    rintro rfl
    cases hnone.symm.trans hw
  | case3 waitId rest s record hfound hearlier ih =>
    obtain ⟨hsame, hrest⟩ := ih hs h
    refine ⟨hsame, fun id w hw => (hrest id w hw).imp_right fun ⟨hw, hlater⟩ => ⟨hw, ?_⟩⟩
    intro hid
    rcases mem_cons.mp hid with rfl | hid
    · cases hfound.symm.trans hw
      rw [first_iff hs hfound, hearlier]
      exact Bool.true_eq_false.mp
    · exact hlater hid
  | case4 => cases h
  | case5 waitId rest s record hfound _ blockers hblocked _ ih =>
    have hrefresh := sameQueue_refresh blockers hfound
    obtain ⟨hsame, hrest⟩ := ih (hs.refresh hfound) h
    refine ⟨hrefresh.trans hsame, fun id w hw => ?_⟩
    rcases hrest id w hw with hfresh | ⟨hw, hlater⟩
    · exact .inl hfresh
    rw [Map.lookup_insert_if] at hw
    split at hw
    · cases hw
      exact .inl ⟨rfl, blocked_iff.mpr fun hnil => hblocked (List.isEmpty_iff.mpr hnil)⟩
    · next hne =>
      refine .inr ⟨hw, fun hid hfirst => ?_⟩
      exact hlater ((mem_cons.mp hid).resolve_left hne) (hrefresh.first ⟨rfl, rfl, rfl, rfl⟩ hfirst)

theorem refreshed_of_idle (hs : Queued s) (h : drainScan now s.waitOrder s = (s', false))
    (hw : s'.waits.lookup id = some w) (hfirst : s'.First w) : s'.Refreshed w := by
  obtain ⟨hsame, hidle⟩ := drainScan_idle hs h
  rcases hidle id w hw with hfresh | ⟨hold, hlater⟩
  · rw [Refreshed, hsame.grants]
    exact ⟨hfresh.1, (hsame.blocked_iff ⟨rfl, rfl, rfl, rfl⟩).mp hfresh.2⟩
  · have hlisted : id ∈ s.waitOrder := (hs.listed id).mpr (by rw [hold]; rfl)
    exact absurd (hsame.first_symm ⟨rfl, rfl, rfl, rfl⟩ hfirst) (hlater hlisted)

/-- A pass that grants leaves one wait less. -/
theorem drainScan_busy (h : drainScan now queue s = (s', true)) :
    Map.size s'.waits + 1 = Map.size s.waits := by
  fun_induction drainScan now queue s with
  | case1 => cases h
  | case2 _ _ _ _ ih => exact ih h
  | case3 _ _ _ _ _ _ ih => exact ih h
  | case4 waitId rest s w hfound =>
    cases h
    exact Map.size_erase (Option.isSome_of_mem hfound)
  | case5 waitId rest s w hfound _ _ _ _ ih =>
    rw [ih h]
    exact Map.size_insert (Option.isSome_of_mem hfound)

theorem drainLoop_noLostWakeup (hs : Queued s)
    (hfuel : Map.size s.waits < fuel) : (drainLoop now fuel s).NoLostWakeup := by
  induction fuel generalizing s with
  | zero => exact absurd hfuel (Nat.not_lt_zero _)
  | succ fuel ih =>
    rw [drainLoop]
    split
    · next after hscan =>
      have hsize := drainScan_busy hscan
      have hmoves := moves_drainScan now s.waitOrder s
      rw [hscan] at hmoves
      exact ih (hs.moves hmoves) (by omega)
    · next after hscan =>
      exact fun id w hw hfirst => (refreshed_of_idle hs hscan hw hfirst).2

theorem drain_noLostWakeup (hs : Queued s) (now : Nat) :
    (s.drainGrantableWaits now).NoLostWakeup := drainLoop_noLostWakeup hs (Nat.lt_succ_self _)

/-! ## The other moves -/

theorem NoLostWakeup.addGrant (h : s.NoLostWakeup) : (s.addGrant request key now).NoLostWakeup := by
  intro id w hw hfirst
  obtain ⟨i, g, hg, hblocks⟩ := h id w hw hfirst
  refine ⟨i, g, ?_, hblocks⟩
  rw [MGALockWaitLifecycle.addGrant, emplaceGrant]
  split
  · exact hg
  · next hnone =>
    rw [Map.lookup_insert_if]
    split
    · next hid =>
      rw [hid, hnone] at hg
      cases hg
    · exact hg

theorem NoLostWakeup.enqueue (h : s.NoLostWakeup) (hs : Queued s)
    (hblocked : blockingGrants s.grants request key ≠ []) :
    (s.enqueue request key (blockingGrants s.grants request key) now).NoLostWakeup := by
  intro id w hw hfirst
  rw [lookup_enqueue] at hw
  split at hw
  · rw [← Option.some.inj hw, blocked_iff]
    exact hblocked
  · refine h id w hw fun i v hv hkey => hfirst i v ?_ hkey
    rw [lookup_enqueue, if_neg]
    · exact hv
    · intro hi
      rw [hi, hs.fresh] at hv
      cases hv

/-- If the wait that leaves is the first of its resource, the one that moves up
is blocked. -/
def HandsOver (s : MGALockWaitLifecycle) (waitId : String) : Prop :=
  ∀ w, s.waits.lookup waitId = some w → s.First w →
    ∀ id v, s.waits.lookup id = some v → (s.removeWait waitId).First v →
      id ≠ waitId → v.resourceKey = w.resourceKey → s.Blocked v

theorem noLostWakeup_removeWait_iff (h : s.NoLostWakeup) (waitId : String) :
    (s.removeWait waitId).NoLostWakeup ↔ s.HandsOver waitId := by
  constructor
  · intro hafter w _ _ id v hv hfirst hne _
    exact hafter id v (lookup_removeWait_iff.mpr ⟨hne, hv⟩) hfirst
  · intro hover id v hv hfirst
    obtain ⟨hne, hthere⟩ := lookup_removeWait_iff.mp hv
    have hrest : ∀ i u, i ≠ waitId → s.waits.lookup i = some u →
        u.resourceKey = v.resourceKey → v.queueSequence ≤ u.queueSequence := by
      intro i u hi hu
      exact hfirst i u (lookup_removeWait_iff.mpr ⟨hi, hu⟩)
    by_cases hold : s.First v
    · exact h id v hthere hold
    -- only the wait that left can have been in front of this one
    rw [First, not_forall] at hold
    obtain ⟨i, hold⟩ := hold
    simp only [not_forall] at hold
    obtain ⟨w, hw, hkey, hlt⟩ := hold
    have hi : i = waitId := by
      by_contra hi
      have hle := hrest i w hi hw hkey
      omega
    subst hi
    refine hover w hw ?_ id v hthere hfirst hne hkey.symm
    intro j u hu hukey
    by_cases hj : j = i
    · rw [hj, hw] at hu
      rw [Option.some.inj hu]
    · have hle := hrest j u hj hu (hukey.trans hkey)
      omega

/-! ## Calls -/

/-- A search that picks a victim has the next wait in its queue blocked. -/
def ResolvesCleanly (s : MGALockWaitLifecycle) : Prop :=
  ∀ victim, s.victimWait = some victim → s.HandsOver victim.wait.waitId

/-- What keeps a call from losing a wakeup. -/
def Wakes (s : MGALockWaitLifecycle) : LockWaitOperation → Prop
  | .cancelWait waitId => s.HandsOver waitId
  | .detectAndResolveDeadlock => s.ResolvesCleanly
  | .acquire request now =>
    s.Queues request now → request.requiresDeadlockDetection = true →
      (s.queuedBy request now).ResolvesCleanly
  | _ => True

theorem noLostWakeup_detect_iff (h : s.NoLostWakeup) :
    s.detectAndResolveDeadlock.2.NoLostWakeup ↔ s.ResolvesCleanly := by
  rw [ResolvesCleanly]
  rcases detect_cases s with ⟨victim, hvictim, hafter⟩ | ⟨hnone, hafter⟩
  · rw [hafter, noLostWakeup_removeWait_iff h, hvictim]
    simp
  · rw [hafter, hnone]
    exact iff_of_true h fun _ hvictim => absurd hvictim (by simp)

theorem noLostWakeup_acquire_iff (h : s.NoLostWakeup) (hs : Queued s) (now : Nat) :
    (s.acquire request now).2.NoLostWakeup ↔ s.Wakes (.acquire request now) := by
  rw [Wakes]
  have hmove := acquire_move s request now
  generalize (s.acquire request now).2 = after at hmove ⊢
  cases hmove with
  | same hqueues => exact iff_of_true h fun htrue => absurd htrue hqueues
  | granted _ hfree => exact iff_of_true h.addGrant fun hqueues => absurd hfree hqueues.blocked
  | queued hqueues hdetect =>
    refine iff_of_true (h.enqueue hs hqueues.blocked) fun _ htrue => ?_
    rw [hdetect] at htrue
    exact absurd htrue Bool.false_ne_true
  | resolved hqueues hdetect =>
    have hqueued : (s.queuedBy request now).NoLostWakeup := h.enqueue hs hqueues.blocked
    rw [noLostWakeup_detect_iff hqueued]
    exact ⟨fun hclean _ _ => hclean, fun hclean => hclean hqueues hdetect⟩

theorem noLostWakeup_apply_iff (h : s.NoLostWakeup) (hs : Queued s)
    (operation : LockWaitOperation) : (s.apply operation).NoLostWakeup ↔ s.Wakes operation := by
  cases operation with
  | acquire request now => exact noLostWakeup_acquire_iff h hs now
  | releaseGrant grantId now =>
    refine iff_of_true ?_ trivial
    rw [apply, releaseGrant]
    split
    · exact h
    · exact drain_noLostWakeup (hs.withGrants _) now
  | releaseOwner ownerUuid now =>
    exact iff_of_true (drain_noLostWakeup ((hs.withGrants _).dropWaits _) now) trivial
  | cancelWait waitId =>
    rw [apply, cancelWait]
    split
    · next hnone =>
      refine iff_of_true h fun w hw => ?_
      cases hnone.symm.trans hw
    · exact noLostWakeup_removeWait_iff h waitId
  | disconnectOwner ownerUuid now =>
    exact iff_of_true (drain_noLostWakeup ((hs.withGrants _).dropWaits _) now) trivial
  | processTimeouts now => exact iff_of_true (drain_noLostWakeup (hs.dropWaits _) now) trivial
  | detectAndResolveDeadlock => exact noLostWakeup_detect_iff h
  | shutdown =>
    refine iff_of_true (fun id w hw => ?_) trivial
    cases hw

theorem run_append (operations : List LockWaitOperation) (operation : LockWaitOperation) :
    run (operations ++ [operation]) = (run operations).apply operation := by
  rw [run, foldl_append]
  rfl

/-- No wakeup is lost through exactly the runs all of whose calls wake. -/
theorem noLostWakeup_iff (operations : List LockWaitOperation) :
    (∀ done, done <+: operations → (run done).NoLostWakeup) ↔
      ∀ done operation, done ++ [operation] <+: operations → (run done).Wakes operation := by
  constructor
  · intro h done operation hprefix
    have hdone : done <+: operations := (prefix_append done [operation]).trans hprefix
    rw [← noLostWakeup_apply_iff (h done hdone) (queued_run done), ← run_append]
    exact h _ hprefix
  · intro h done
    induction done using List.reverseRecOn with
    | nil =>
      intro _ id w hw
      cases hw
    | append_singleton done operation ih =>
      intro hprefix
      have hdone := ih ((prefix_append done [operation]).trans hprefix)
      rw [run_append, noLostWakeup_apply_iff hdone (queued_run done)]
      exact h done operation hprefix

def sampleUuid (n : Nat) : String := "00000000-0000-7000-8000-00000000000" ++ toString n

def relationRequest (owner relation : Nat) (mode : MGALockMode) : MGALockRequest :=
  { requestId := sampleUuid owner
    ownerKind := .transaction
    ownerUuid := sampleUuid owner
    transactionUuid := sampleUuid owner
    scopeKind := .relation
    scopeUuid := sampleUuid relation
    databaseUuid := sampleUuid 9
    mode
    waitPolicy := .waitWithDeadlockDetection }

/-- Owner 2 waits to write relation 7 and owner 4 to read it, behind it. Once
owner 1 is gone only the writer is blocked, by owner 3. -/
def readerBehindWriter : List LockWaitOperation :=
  [.acquire (relationRequest 1 7 .intentExclusive) 0,
   .acquire (relationRequest 3 7 .intentShared) 0, .acquire (relationRequest 2 8 .exclusiveWrite) 0,
   .acquire (relationRequest 2 7 .exclusiveWrite) 0, .acquire (relationRequest 4 7 .sharedRead) 0,
   .releaseOwner (sampleUuid 1) 0]

/-- The writer's wait goes away, cancelled or as the victim of a deadlock with
owner 3, and the reader behind it is not granted. -/
theorem reader_left_waiting :
    (run readerBehindWriter).NoLostWakeup ∧ ¬(run (readerBehindWriter ++
      [.cancelWait (makeWaitId (sampleUuid 2) 1)])).NoLostWakeup ∧
    ¬(run (readerBehindWriter ++
      [.acquire (relationRequest 3 8 .exclusiveWrite) 0])).NoLostWakeup := by
  rw [noLostWakeup_iff_lostWakeups (queued_run _), noLostWakeup_iff_lostWakeups (queued_run _),
    noLostWakeup_iff_lostWakeups (queued_run _)]
  decide +kernel

end MGALockWaitLifecycle

end ScratchBird.Mga
