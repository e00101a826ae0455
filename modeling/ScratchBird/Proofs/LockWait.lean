import ScratchBird.Mga.LockWait

/-!
# The lock wait lifecycle as a few moves

Eight calls change the lifecycle, but they are put together from a few moves: a
grant that nothing blocks, a wait that something blocks, waits or grants that go
away, and a wait whose list of blockers is written anew. `Move` lists them with
what is known when they happen, `Moves` is any sequence of them, and each call is
such a sequence. A fact about every reachable state is then proved once a move.

The first such fact is that two owners on one resource hold compatible modes. The
matrix is symmetric, so it does not matter which of the two came first. The
second is that the queue lists the waits in the order of their numbers. A fresh
wait has a fresh identifier because the number is part of it, behind the last
colon.
-/

namespace ScratchBird.Mga

open Lib Relation List

variable {s s' : MGALockWaitLifecycle} {request : MGALockRequest} {grants : Map String GrantRecord}
  {key id waitId : String} {now : Nat} {blockers : List String} {record : WaitRecord}

/-! ## Modes and identifiers -/

theorem mgaLockModesCompatible_comm (a b : MGALockMode) :
    mgaLockModesCompatible a b = mgaLockModesCompatible b a := by
  cases a <;> cases b <;> rfl

/-- The digits behind the last colon are the number. -/
theorem makeId_injective {a b : String} {m n : Nat}
    (h : a ++ ":" ++ toString m = b ++ ":" ++ toString n) : m = n := by
  have hcolon : ∀ n, ':' ∉ Nat.toDigits 10 n := fun n hmem =>
    absurd (@Nat.isDigit_of_mem_toDigits 10 n ':' (by decide) (by decide) hmem) (by decide)
  have hlist := congrArg String.toList h
  simp only [String.toList_append, append_assoc] at hlist
  have hdigits : Nat.toDigits 10 m = Nat.toDigits 10 n := by
    rcases List.append_eq_append_iff.mp hlist with ⟨between, -, hrest⟩ | ⟨between, -, hrest⟩
    all_goals cases between with
    | nil => simp_all
    | cons first between =>
      have hmem := congrArg (':' ∈ ·) (List.cons.inj hrest).2
      simp [hcolon] at hmem
  calc m = Nat.ofDigitChars 10 (Nat.toDigits 10 m) 0 :=
        (Nat.ofDigitChars_toDigits (by decide) (by decide)).symm
    _ = n := by rw [hdigits, Nat.ofDigitChars_toDigits (by decide) (by decide)]

theorem blockingGrants_perm (grants : Map String GrantRecord)
    (request : MGALockRequest) (key : String) :
    (blockingGrants grants request key).Perm
      (((Map.values grants).filter (blocksRequest request key)).map (·.grant.grantId)) :=
  perm_insertionSort _ _

theorem blockingGrants_eq_nil_iff :
    blockingGrants grants request key = [] ↔ ∀ id record, grants.lookup id = some record →
        blocksRequest request key record = false := by
  have hperm := blockingGrants_perm grants request key
  constructor
  · intro hnil id record hfound
    rw [hnil, List.nil_perm, map_eq_nil_iff] at hperm
    exact Bool.eq_false_iff.mpr
      (filter_eq_nil_iff.mp hperm record (Map.mem_values.mpr ⟨id, hfound⟩))
  · intro hnone
    have hempty : (Map.values grants).filter (blocksRequest request key) = [] := by
      refine filter_eq_nil_iff.mpr fun record hrecord => ?_
      obtain ⟨id, hfound⟩ := Map.mem_values.mp hrecord
      exact Bool.eq_false_iff.mp (hnone id record hfound)
    rw [hempty] at hperm
    exact hperm.eq_nil

/-! ## Moves -/

namespace MGALockWaitLifecycle

inductive Move (s : MGALockWaitLifecycle) : MGALockWaitLifecycle → Prop where
  | grant {request : MGALockRequest} {key : String} {now : Nat}
      (hfree : blockingGrants s.grants request key = []) : Move s (s.addGrant request key now)
  | enqueue {request : MGALockRequest} {key : String} {now : Nat}
      (hvalid : request.validateRequestShape = none)
      (hblocked : blockingGrants s.grants request key ≠ [])
      (hopen : request.deadlineExpired now = false) :
      Move s (s.enqueue request key (blockingGrants s.grants request key) now)
  | removeWait (waitId : String) : Move s (s.removeWait waitId)
  | dropWaits (drop : WaitRecord → Bool) : Move s (s.dropWaits drop)
  | dropGrants {grants : Map String GrantRecord}
      (hsub : ∀ id record, grants.lookup id = some record → s.grants.lookup id = some record) :
      Move s { s with grants := grants }
  | refresh {waitId : String} {record : WaitRecord} {blockers : List String}
      (hfound : s.waits.lookup waitId = some record) : Move s { s with
        waits := s.waits.insert waitId { record with
          wait := { record.wait with blockedByGrantIds := blockers } } }
  | shutdown : Move s s.shutdown.2

def Moves : MGALockWaitLifecycle → MGALockWaitLifecycle → Prop := ReflTransGen Move

/-- The wait that a search takes away: the victim's, if there is a cycle of local
waits. -/
def victimWait (s : MGALockWaitLifecycle) : Option WaitRecord :=
  match findFirstCycle (buildWaitForGraph s.grants s.waits) with
  | [] => none
  | first :: others =>
    if cycleContainsDistributedWait s.waits (first :: others) then none
    else waitForOwner s.waits (selectVictim s.grants s.waits (first :: others))

theorem detect_cases (s : MGALockWaitLifecycle) :
    (∃ victim, s.victimWait = some victim ∧
      s.detectAndResolveDeadlock.2 = s.removeWait victim.wait.waitId) ∨
    (s.victimWait = none ∧ s.detectAndResolveDeadlock.2 = s) := by
  rw [victimWait]
  fun_cases detectAndResolveDeadlock s with
  | case1 hnil =>
    rw [hnil]
    exact .inr ⟨rfl, rfl⟩
  | case2 _ _ hcycle _ hdistributed =>
    rw [hcycle]
    exact .inr ⟨if_pos hdistributed, rfl⟩
  | case3 _ _ hcycle _ hlocal _ hnone =>
    rw [hcycle]
    exact .inr ⟨(if_neg hlocal).trans hnone, rfl⟩
  | case4 _ _ hcycle _ hlocal _ victim hfound =>
    rw [hcycle]
    exact .inl ⟨victim, (if_neg hlocal).trans hfound, rfl⟩

/-- The request in the queue, before any search. -/
def queuedBy (s : MGALockWaitLifecycle) (request : MGALockRequest) (now : Nat) :
    MGALockWaitLifecycle :=
  s.enqueue request request.resourceKey (blockingGrants s.grants request request.resourceKey) now

/-- A request that passes all checks, is blocked and may wait. -/
structure Queues (s : MGALockWaitLifecycle) (request : MGALockRequest) (now : Nat) : Prop where
  shape : request.validateRequestShape = none
  cluster : ((isClusterScope request.scopeKind || isClusterMode request.mode) &&
    (!request.clusterExists || isNone request.clusterUuid)) = false
  accepting : s.acceptingNewRequests = true
  newcomer : ownerHasGrantOnResource s.grants request request.resourceKey = false
  blocked : blockingGrants s.grants request request.resourceKey ≠ []
  policy : request.waitPolicy ≠ .noWait
  inTime : request.deadlineExpired now = false

inductive AcquireMove (s : MGALockWaitLifecycle) (request : MGALockRequest)
    (now : Nat) : MGALockWaitLifecycle → Prop where
  | same (hqueues : ¬s.Queues request now) : AcquireMove s request now s
  | granted (hvalid : request.validateRequestShape = none)
      (hfree : blockingGrants s.grants request request.resourceKey = []) :
      AcquireMove s request now (s.addGrant request request.resourceKey now)
  | queued (hqueues : s.Queues request now) (hdetect : request.requiresDeadlockDetection = false) :
      AcquireMove s request now (s.queuedBy request now)
  | resolved (hqueues : s.Queues request now) (hdetect : request.requiresDeadlockDetection = true) :
      AcquireMove s request now (s.queuedBy request now).detectAndResolveDeadlock.2

theorem acquire_move (s : MGALockWaitLifecycle) (request : MGALockRequest)
    (now : Nat) : AcquireMove s request now (s.acquire request now).2 := by
  fun_cases acquire s request now with
  | case1 reason hshape =>
    refine .same fun h => ?_
    cases hshape.symm.trans h.shape
  | case2 _ hcluster => exact .same fun h => Bool.false_ne_true (h.cluster ▸ hcluster)
  | case3 _ _ hclosed => exact .same fun h => by simp [h.accepting] at hclosed
  | case4 _ _ _ _ howner => exact .same fun h => Bool.false_ne_true (h.newcomer ▸ howner)
  | case5 hvalid _ _ _ _ _ hfree => exact .granted hvalid (List.isEmpty_iff.mp hfree)
  | case6 _ _ _ _ _ _ _ hpolicy => exact .same fun h => h.policy hpolicy
  | case7 _ _ _ _ _ _ _ _ hexpired =>
    exact .same fun h => Bool.false_ne_true (h.inTime ▸ hexpired)
  | case8 hshape hcluster hopen _ howner _ hblocked hpolicy hexpired =>
    have hqueues : s.Queues request now :=
      ⟨hshape, Bool.eq_false_iff.mpr hcluster, by simpa using hopen,
        Bool.eq_false_iff.mpr howner, fun hnil => hblocked (List.isEmpty_iff.mpr hnil), hpolicy,
        Bool.eq_false_iff.mpr hexpired⟩
    rw [queueRequest]
    dsimp only
    split
    · next hdetect =>
      have hend : AcquireMove s request now (s.queuedBy request now).detectAndResolveDeadlock.2 :=
        .resolved hqueues hdetect
      split
      · exact hend
      split
      · exact hend
      · exact hend
    · next hdetect => exact .queued hqueues (Bool.eq_false_iff.mpr hdetect)

theorem moves_detect : Moves s s.detectAndResolveDeadlock.2 := by
  rcases detect_cases s with ⟨_, -, hafter⟩ | ⟨-, hafter⟩
  · rw [hafter]
    exact .single (.removeWait _)
  · rw [hafter]
    exact .refl

theorem moves_acquire : Moves s (s.acquire request now).2 := by
  have hmove := acquire_move s request now
  generalize (s.acquire request now).2 = after at hmove ⊢
  cases hmove with
  | same => exact .refl
  | granted _ hfree => exact .single (.grant hfree)
  | queued hqueues =>
    exact .single (.enqueue hqueues.shape hqueues.blocked hqueues.inTime)
  | resolved hqueues =>
    exact .head (.enqueue hqueues.shape hqueues.blocked hqueues.inTime) moves_detect

theorem moves_drainScan (now : Nat) (queue : List String)
    (s : MGALockWaitLifecycle) : Moves s (drainScan now queue s).1 := by
  induction queue generalizing s with
  | nil => exact .refl
  | cons waitId rest ih =>
    rw [drainScan]
    split
    · exact ih s
    next record hfound =>
    split
    · exact ih s
    dsimp only
    split
    · next hfree =>
      exact ReflTransGen.tail (.single (.grant (List.isEmpty_iff.mp hfree))) (.removeWait waitId)
    · exact (ReflTransGen.single (Move.refresh hfound)).trans (ih _)

theorem moves_drainLoop (now fuel : Nat) (s : MGALockWaitLifecycle) :
    Moves s (drainLoop now fuel s) := by
  induction fuel generalizing s with
  | zero => exact .refl
  | succ fuel ih =>
    rw [drainLoop]
    have hscan := moves_drainScan now s.waitOrder s
    split
    · next hprogress =>
      rw [hprogress] at hscan
      exact hscan.trans (ih _)
    · next hdone =>
      rw [hdone] at hscan
      exact hscan

theorem moves_drain (now : Nat) (s : MGALockWaitLifecycle) :
    Moves s (s.drainGrantableWaits now) := moves_drainLoop now _ s

theorem moves_releaseOwner {ownerUuid : String} : Moves s (s.releaseOwner ownerUuid now).2 := by
  refine ReflTransGen.trans ?_ (moves_drain now _)
  refine ReflTransGen.tail (.single (.dropGrants ?_)) (.dropWaits _)
  intro id record hfound
  exact (Map.lookup_filter_iff.mp hfound).1

theorem moves_apply (s : MGALockWaitLifecycle) (operation : LockWaitOperation) :
    Moves s (s.apply operation) := by
  cases operation with
  | acquire request now => exact moves_acquire
  | releaseGrant grantId now =>
    rw [apply, releaseGrant]
    split
    · exact .refl
    refine ReflTransGen.trans (.single (.dropGrants ?_)) (moves_drain now _)
    exact fun id record hfound => (Map.lookup_erase_iff.mp hfound).2
  | releaseOwner ownerUuid now => exact moves_releaseOwner
  | cancelWait waitId =>
    rw [apply, cancelWait]
    split
    · exact .refl
    · exact .single (.removeWait waitId)
  | disconnectOwner ownerUuid now => exact moves_releaseOwner
  | processTimeouts now => exact ReflTransGen.trans (.single (.dropWaits _)) (moves_drain now _)
  | detectAndResolveDeadlock => exact moves_detect
  | shutdown => exact .single .shutdown

/-- What every move keeps holds after every run. -/
theorem run_induction {p : MGALockWaitLifecycle → Prop} (hempty : p {})
    (hmove : ∀ s s', Move s s' → p s → p s') (operations : List LockWaitOperation) :
    p (run operations) := by
  have hmoves : ∀ {s s'}, Moves s s' → p s → p s' := by
    intro s s' h hs
    induction h with
    | refl => exact hs
    | tail _ hlast ih => exact hmove _ _ hlast ih
  induction operations using List.reverseRecOn with
  | nil => exact hempty
  | append_singleton operations operation ih =>
    rw [run, foldl_append]
    exact hmoves (moves_apply _ operation) ih

theorem lookup_addGrant {g : GrantRecord}
    (h : (s.addGrant request key now).grants.lookup id = some g) :
    s.grants.lookup id = some g ∨ (id = makeGrantId request.requestId (s.generation + 1) ∧
        g = { grant := makeGrant request now (s.generation + 1), request
              resourceKey := key }) := by
  rw [addGrant, emplaceGrant] at h
  split at h
  · exact .inl h
  rw [Map.lookup_insert_if] at h
  split at h
  · next hid => exact .inr ⟨hid, (Option.some.inj h).symm⟩
  · exact .inl h

/-! ## Compatible grants -/

/-- Two grants of different owners on one resource are compatible. -/
def Compatible (grants : Map String GrantRecord) : Prop :=
  ∀ i j g h, grants.lookup i = some g → grants.lookup j = some h → g.resourceKey = h.resourceKey →
    ¬(g.grant.ownerUuid = h.grant.ownerUuid ∧ g.grant.ownerKind = h.grant.ownerKind) →
    mgaLockModesCompatible g.grant.grantedMode h.grant.grantedMode = true

theorem compatible_of_not_blocks {record : GrantRecord}
    (h : blocksRequest request key record = false) (hkey : record.resourceKey = key)
    (howner : ¬(request.ownerUuid = record.grant.ownerUuid ∧
      request.ownerKind = record.grant.ownerKind)) :
    mgaLockModesCompatible request.mode record.grant.grantedMode = true := by
  have hother : request.sameOwner record.grant = false := by
    rw [Bool.eq_false_iff, MGALockRequest.sameOwner, Ne, Bool.and_eq_true, beq_iff_eq, beq_iff_eq]
    exact howner
  rw [blocksRequest, hkey, hother] at h
  simpa using h

theorem compatible_addGrant (h : Compatible s.grants)
    (hfree : blockingGrants s.grants request key = []) :
    Compatible (s.addGrant request key now).grants := by
  have hnone := blockingGrants_eq_nil_iff.mp hfree
  rw [addGrant, emplaceGrant]
  split
  · exact h
  intro i j g g' hi hj hkey howner
  rw [Map.lookup_insert_if] at hi hj
  split at hi
  · cases hi
    split at hj
    · cases hj
      exact absurd ⟨rfl, rfl⟩ howner
    · exact compatible_of_not_blocks (hnone j g' hj) hkey.symm howner
  · split at hj
    · cases hj
      rw [mgaLockModesCompatible_comm]
      exact compatible_of_not_blocks (hnone i g hi) hkey
        fun hsame => howner ⟨hsame.1.symm, hsame.2.symm⟩
    · exact h i j g g' hi hj hkey howner

theorem Compatible.move (h : Compatible s.grants) (hmove : Move s s') : Compatible s'.grants := by
  cases hmove with
  | grant hfree => exact compatible_addGrant h hfree
  | enqueue => exact h
  | removeWait => exact h
  | dropWaits => exact h
  | dropGrants hsub =>
    intro i j g g' hi hj
    exact h i j g g' (hsub i g hi) (hsub j g' hj)
  | refresh => exact h
  | shutdown =>
    intro i j g g' hi
    cases hi

/-! ## The queue -/

/-- The first wait has the smaller number. -/
def Before (waits : Map String WaitRecord) (i j : String) : Prop :=
  ∀ v w, waits.lookup i = some v → waits.lookup j = some w → v.queueSequence < w.queueSequence

/-- The queue lists the waits, in the order of their numbers. -/
structure Queued (s : MGALockWaitLifecycle) : Prop where
  listed : ∀ id, id ∈ s.waitOrder ↔ (s.waits.lookup id).isSome
  ordered : s.waitOrder.Pairwise (Before s.waits)
  waitId : ∀ id w, s.waits.lookup id = some w → w.wait.waitId = id
  named : ∀ id w, s.waits.lookup id = some w → id = makeWaitId w.request.requestId w.queueSequence
  shaped : ∀ id w, s.waits.lookup id = some w → w.request.validateRequestShape = none
  counted : ∀ id w, s.waits.lookup id = some w → w.queueSequence ≤ s.waitSequence

theorem Queued.nodup (h : Queued s) : s.waitOrder.Nodup := by
  refine h.ordered.imp_of_mem ?_
  intro i j hi _ hbefore hij
  obtain ⟨w, hw⟩ := Option.isSome_iff_exists.mp ((h.listed i).mp hi)
  subst hij
  exact Nat.lt_irrefl _ (hbefore w w hw hw)

/-- The identifier of the next wait is not in use. -/
theorem Queued.fresh (h : Queued s) :
    s.waits.lookup (makeWaitId request.requestId (s.waitSequence + 1)) = none := by
  cases hfound : s.waits.lookup (makeWaitId request.requestId (s.waitSequence + 1)) with
  | none => rfl
  | some w =>
    have hsequence := makeId_injective (h.named _ w hfound)
    have hcounted := h.counted _ w hfound
    omega

theorem lookup_enqueue : (s.enqueue request key blockers now).waits.lookup id =
      if id = makeWaitId request.requestId (s.waitSequence + 1) then
        some
          { wait := makeWait request blockers now (s.waitSequence + 1), request
            resourceKey := key
            queueSequence := s.waitSequence + 1 }
      else s.waits.lookup id :=
  Map.lookup_insert_if

theorem mem_waitOrder_enqueue :
    id ∈ (s.enqueue request key blockers now).waitOrder ↔ id ∈ s.waitOrder ∨
        id = makeWaitId request.requestId (s.waitSequence + 1) := by
  rw [← mem_singleton]
  exact mem_append

theorem Queued.enqueue (h : Queued s) (hvalid : request.validateRequestShape = none) :
    Queued (s.enqueue request key blockers now) := by
  have hfresh := @Queued.fresh s request h
  have hold : ∀ id ∈ s.waitOrder, id ≠ makeWaitId request.requestId (s.waitSequence + 1) := by
    intro id hid heq
    have hsome := (h.listed id).mp hid
    rw [heq, hfresh] at hsome
    exact Bool.false_ne_true hsome
  have hlookup : ∀ {id w}, (s.enqueue request key blockers now).waits.lookup id = some w →
        (id = makeWaitId request.requestId (s.waitSequence + 1) ∧
          w = { wait := makeWait request blockers now (s.waitSequence + 1), request
                resourceKey := key
                queueSequence := s.waitSequence + 1 }) ∨
          s.waits.lookup id = some w := by
    intro id w hw
    rw [lookup_enqueue] at hw
    split at hw
    · next hid => exact .inl ⟨hid, (Option.some.inj hw).symm⟩
    · exact .inr hw
  refine ⟨?_, ?_, ?_, ?_, ?_, ?_⟩
  · intro id
    rw [lookup_enqueue, mem_waitOrder_enqueue]
    by_cases hid : id = makeWaitId request.requestId (s.waitSequence + 1)
    · exact iff_of_true (.inr hid) (by rw [if_pos hid]; rfl)
    · rw [if_neg hid, ← h.listed id]
      exact or_iff_left hid
  · refine pairwise_append.mpr ⟨?_, pairwise_singleton _ _, ?_⟩
    · refine h.ordered.imp_of_mem ?_
      intro i j hi hj hbefore v w hv hw
      exact hbefore v w ((hlookup hv).resolve_left fun hnew => hold i hi hnew.1)
        ((hlookup hw).resolve_left fun hnew => hold j hj hnew.1)
    · intro i hi j hj v w hv hw
      have hv := (hlookup hv).resolve_left fun hnew => hold i hi hnew.1
      rcases hlookup hw with ⟨-, rfl⟩ | hw
      · exact Nat.lt_succ_of_le (h.counted i v hv)
      · rw [mem_singleton.mp hj] at hw
        cases hfresh.symm.trans hw
  all_goals
    intro id w hw
    rcases hlookup hw with ⟨rfl, rfl⟩ | hw
  · rfl
  · exact h.waitId id w hw
  · rfl
  · exact h.named id w hw
  · exact hvalid
  · exact h.shaped id w hw
  · exact Nat.le_refl _
  · exact Nat.le_succ_of_le (h.counted id w hw)

/-- Waits may leave the map and the queue together. -/
theorem Queued.restrict (h : Queued s) {waits : Map String WaitRecord} {keep : String → Bool}
    (hwaits : ∀ id w, waits.lookup id = some w → s.waits.lookup id = some w)
    (hkeep : ∀ id ∈ s.waitOrder, keep id = (waits.lookup id).isSome) :
    Queued { s with waits := waits, waitOrder := s.waitOrder.filter keep } := by
  refine ⟨?_, ?_, fun id w hw => h.waitId id w (hwaits id w hw),
    fun id w hw => h.named id w (hwaits id w hw), fun id w hw => h.shaped id w (hwaits id w hw),
    fun id w hw => h.counted id w (hwaits id w hw)⟩
  · intro id
    rw [mem_filter]
    constructor
    · rintro ⟨hid, hkept⟩
      rw [← hkeep id hid]
      exact hkept
    · intro hsome
      obtain ⟨w, hw⟩ := Option.isSome_iff_exists.mp hsome
      have hid := (h.listed id).mpr (Option.isSome_iff_exists.mpr ⟨w, hwaits id w hw⟩)
      exact ⟨hid, (hkeep id hid).trans hsome⟩
  · refine (h.ordered.filter keep).imp ?_
    intro i j hbefore v w hv hw
    exact hbefore v w (hwaits i v hv) (hwaits j w hw)

theorem lookup_removeWait_iff {v : WaitRecord} :
    (s.removeWait waitId).waits.lookup id = some v ↔ id ≠ waitId ∧ s.waits.lookup id = some v :=
  Map.lookup_erase_iff

theorem Queued.removeWait (h : Queued s) (waitId : String) : Queued (s.removeWait waitId) := by
  refine h.restrict (fun id w hw => (lookup_removeWait_iff.mp hw).2) ?_
  intro id hid
  rw [Map.lookup_erase_if]
  by_cases heq : id = waitId
  · simp [heq]
  · rw [if_neg heq, (h.listed id).mp hid]
    exact bne_iff_ne.mpr heq

theorem Queued.dropWaits (h : Queued s) (drop : WaitRecord → Bool) : Queued (s.dropWaits drop) := by
  refine h.restrict (fun id w hw => (Map.lookup_filter_iff.mp hw).1) ?_
  intro id hid
  obtain ⟨w, hw⟩ := Option.isSome_iff_exists.mp ((h.listed id).mp hid)
  rw [hw, Option.map_some, Option.getD_some]
  cases hdrop : drop w with
  | true =>
    symm
    rw [Bool.not_true, Option.isSome_eq_false_iff, Option.isNone_iff_eq_none,
      Option.eq_none_iff_forall_ne_some]
    intro v hv
    obtain ⟨hv, hkept⟩ := Map.lookup_filter_iff.mp hv
    rw [hw] at hv
    rw [← Option.some.inj hv, hdrop] at hkept
    exact Bool.false_ne_true hkept
  | false =>
    rw [(Map.lookup_filter_iff.mpr ⟨hw, by rw [hdrop]; rfl⟩ :
      (Map.filter _ s.waits).lookup id = some w)]
    rfl

/-- What of a wait stays when its list of blockers is written anew. -/
structure SameWait (v w : WaitRecord) : Prop where
  request : v.request = w.request
  resourceKey : v.resourceKey = w.resourceKey
  queueSequence : v.queueSequence = w.queueSequence
  waitId : v.wait.waitId = w.wait.waitId

/-- The same waits, apart from what they remember of their blockers. -/
structure SameQueue (s s' : MGALockWaitLifecycle) : Prop where
  grants : s'.grants = s.grants
  waitOrder : s'.waitOrder = s.waitOrder
  forward : ∀ id w, s.waits.lookup id = some w → ∃ w', s'.waits.lookup id = some w' ∧ SameWait w w'
  backward : ∀ id w', s'.waits.lookup id = some w' → ∃ w, s.waits.lookup id = some w ∧ SameWait w w'

theorem sameQueue_refresh (blockers : List String)
    (hfound : s.waits.lookup waitId = some record) : SameQueue s { s with
      waits := s.waits.insert waitId { record with
        wait := { record.wait with blockedByGrantIds := blockers } } } := by
  refine ⟨rfl, rfl, ?_, ?_⟩
  · intro id w hw
    rw [Map.lookup_insert_if]
    split
    · next hid =>
      rw [hid, hfound] at hw
      rw [← Option.some.inj hw]
      exact ⟨_, rfl, rfl, rfl, rfl, rfl⟩
    · exact ⟨w, hw, rfl, rfl, rfl, rfl⟩
  · intro id w hw
    rw [Map.lookup_insert_if] at hw
    split at hw
    · next hid =>
      rw [← Option.some.inj hw, hid]
      exact ⟨record, hfound, rfl, rfl, rfl, rfl⟩
    · exact ⟨w, hw, rfl, rfl, rfl, rfl⟩

/-- Only what a wait remembers of its blockers is written anew. -/
theorem Queued.refresh (h : Queued s) (hfound : s.waits.lookup waitId = some record) :
    Queued { s with
      waits := s.waits.insert waitId { record with
        wait := { record.wait with blockedByGrantIds := blockers } } } := by
  have hback := (sameQueue_refresh blockers hfound).backward
  refine ⟨?_, ?_, ?_, ?_, ?_, ?_⟩
  · intro id
    rw [Map.lookup_insert_if, h.listed id]
    by_cases hid : id = waitId
    · rw [if_pos hid, hid, hfound]
      exact Iff.rfl
    · rw [if_neg hid]
  · refine h.ordered.imp ?_
    intro i j hbefore v w hv hw
    obtain ⟨v', hv', hsame⟩ := hback i v hv
    obtain ⟨w', hw', hsame'⟩ := hback j w hw
    rw [← hsame.queueSequence, ← hsame'.queueSequence]
    exact hbefore v' w' hv' hw'
  all_goals
    intro id w hw
    obtain ⟨v, hv, hsame⟩ := hback id w hw
  · rw [← hsame.waitId]
    exact h.waitId id v hv
  · rw [← hsame.queueSequence, ← hsame.request]
    exact h.named id v hv
  · rw [← hsame.request]
    exact h.shaped id v hv
  · rw [← hsame.queueSequence]
    exact h.counted id v hv

/-- What a fresh wait has, and what a wait keeps when its list of blockers is
written anew, every wait has. -/
theorem forall_waits_move {p : WaitRecord → Prop}
    (hnew : ∀ (request : MGALockRequest) key blockers now sequence,
      request.deadlineExpired now = false → p
        { wait := makeWait request blockers now sequence, request
          resourceKey := key
          queueSequence := sequence })
    (hkeep : ∀ w blockers, p w → p { w with
      wait := { w.wait with blockedByGrantIds := blockers } })
    (h : ∀ id w, s.waits.lookup id = some w → p w) (hmove : Move s s') (id : String)
    (w : WaitRecord) (hw : s'.waits.lookup id = some w) : p w := by
  cases hmove with
  | grant => exact h id w hw
  | enqueue _ _ hopen =>
    rw [lookup_enqueue] at hw
    split at hw
    · rw [← Option.some.inj hw]
      exact hnew _ _ _ _ _ hopen
    · exact h id w hw
  | removeWait => exact h id w (lookup_removeWait_iff.mp hw).2
  | dropWaits => exact h id w (Map.lookup_filter_iff.mp hw).1
  | dropGrants => exact h id w hw
  | refresh hfound =>
    rw [Map.lookup_insert_if] at hw
    split at hw
    · rw [← Option.some.inj hw]
      exact hkeep _ _ (h _ _ hfound)
    · exact h id w hw
  | shutdown => cases hw

theorem queued_empty {generation waitSequence : Nat} {accepting : Bool} :
    Queued { generation := generation, waitSequence := waitSequence,
             acceptingNewRequests := accepting } := by
  refine ⟨fun id => ?_, List.Pairwise.nil, ?_, ?_, ?_, ?_⟩
  · exact iff_of_false not_mem_nil (by simp)
  all_goals
    intro id w hw
    cases hw

theorem Queued.withGrants (h : Queued s) (grants : Map String GrantRecord) :
    Queued { s with grants := grants } := { h with }

theorem Queued.move (h : Queued s) (hmove : Move s s') : Queued s' := by
  cases hmove with
  | grant => exact { h with }
  | enqueue hvalid => exact h.enqueue hvalid
  | removeWait waitId => exact h.removeWait waitId
  | dropWaits drop => exact h.dropWaits drop
  | dropGrants => exact h.withGrants _
  | refresh hfound => exact h.refresh hfound
  | shutdown => exact queued_empty

theorem Queued.moves (h : Queued s) (hmoves : Moves s s') : Queued s' := by
  induction hmoves with
  | refl => exact h
  | tail _ hlast ih => exact ih.move hlast

theorem queued_run (operations : List LockWaitOperation) :
    Queued (run operations) :=
  run_induction queued_empty (fun _ _ hmove h => h.move hmove) operations

theorem compatible_run (operations : List LockWaitOperation) :
    Compatible (run operations).grants := by
  refine run_induction (p := fun s => Compatible s.grants) ?_ ?_ operations
  · intro i j g h hi
    cases hi
  · exact fun _ _ hmove h => h.move hmove

/-- After any run, grants of different owners on one resource are compatible, and
the queue lists every wait once, in the order of the numbers. -/
theorem grants_compatible_and_queue_ordered (operations : List LockWaitOperation) :
    (∀ i j g h, (run operations).grants.lookup i = some g →
      (run operations).grants.lookup j = some h → g.resourceKey = h.resourceKey →
      ¬(g.grant.ownerUuid = h.grant.ownerUuid ∧ g.grant.ownerKind = h.grant.ownerKind) →
      mgaLockModesCompatible g.grant.grantedMode h.grant.grantedMode = true) ∧
    (run operations).waitOrder.Nodup ∧
    (∀ id, id ∈ (run operations).waitOrder ↔ id ∈ (run operations).waits.keys) ∧
    ((run operations).waitOrder.filterMap fun id =>
      ((run operations).waits.lookup id).map (·.queueSequence)).Pairwise (· < ·) := by
  have hqueued := queued_run operations
  refine ⟨compatible_run operations, hqueued.nodup, ?_, ?_⟩
  · intro id
    rw [hqueued.listed id, AList.lookup_isSome, AList.mem_keys]
  · rw [List.pairwise_filterMap]
    refine hqueued.ordered.imp ?_
    intro i j hbefore a ha b hb
    obtain ⟨v, hv, rfl⟩ := Option.map_eq_some_iff.mp ha
    obtain ⟨w, hw, rfl⟩ := Option.map_eq_some_iff.mp hb
    exact hbefore v w hv hw

end MGALockWaitLifecycle

end ScratchBird.Mga
