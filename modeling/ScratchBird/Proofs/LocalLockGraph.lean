import ScratchBird.Lib.Acyclic
import ScratchBird.Proofs.LocalLock

/-!
# The wait-for graph of the lock table

A waiter waits for every other owner of the resource it is queued on. A grant
takes the requester off the queue, so new edges into it close no cycle, and a
release only removes edges. A queued request is the one change that can close a
cycle, and it does exactly when one of the other owners already waits for the
requester, directly or through others.

The table asks that question before it queues a request, but not of every owner.
It asks it of the first other owner only, and of none if the request queues
behind an earlier waiter. `Covered` says that the owners it does not ask would
have answered no; the runs without a cycle are those whose steps are covered.
-/

namespace ScratchBird.Mga

open Lib Relation List

variable {table : LocalTransactionLockTable} {request : TransactionLockRequest}
  {record : LockRecord}
  {preserved owner waiter target source id n fuel blocker count requester : Nat} {key : String}
  {locks : Map String LockRecord}

namespace LocalTransactionLockTable

def ownersOf (locks : Map String LockRecord) (resourceKey : String) : List Nat :=
  match locks.lookup resourceKey with
  | none => []
  | some record => record.owners

/-- The owners of the resource a transaction is queued on. -/
def waitedOwners (table : LocalTransactionLockTable) (waiter : Nat) : List Nat :=
  match table.waiting.lookup waiter with
  | none => []
  | some wait => ownersOf table.locks wait.request.resourceKey

def WaitsFor (table : LocalTransactionLockTable) (waiter owner : Nat) : Prop :=
  owner ≠ waiter ∧ owner ∈ table.waitedOwners waiter

instance : DecidableRel (WaitsFor table) := fun _ _ => inferInstanceAs (Decidable (_ ∧ _))

theorem ownersOf_eq (h : table.locks.lookup key = some record) :
    ownersOf table.locks key = record.owners := by
  rw [ownersOf, h]

theorem mem_keys_of_mem_ownersOf (h : owner ∈ ownersOf locks key) : key ∈ locks.keys.toFinset := by
  rw [List.mem_toFinset, ← AList.mem_keys, ← AList.lookup_isSome]
  rw [ownersOf] at h
  split at h
  · cases h
  · next hsome =>
    rw [hsome]
    rfl

theorem Sound.owner_valid (h : table.Sound) (howner : owner ∈ ownersOf table.locks key) :
    localIdValid owner = true := by
  rw [ownersOf] at howner
  split at howner
  · cases howner
  · next record hrecord => exact (h.locks key record hrecord).valid owner howner

/-! ## The search -/

/-- A step of the search, through the resource it looks up. -/
def SearchStep (table : LocalTransactionLockTable) (key : String) (waiter owner : Nat) : Prop :=
  ∃ wait, table.waiting.lookup waiter = some wait ∧
    wait.request.resourceKey = key ∧ owner ∈ ownersOf table.locks key

theorem via_of_mem (h : owner ∈ table.waitedOwners waiter) :
    Via table.SearchStep table.locks.keys.toFinset waiter owner := by
  rw [waitedOwners] at h
  split at h
  · cases h
  · next wait hwait =>
    exact ⟨wait.request.resourceKey, mem_keys_of_mem_ownersOf h, wait, hwait, rfl, h⟩

theorem hasDeadlockPath_of_within (h : table.Sound)
    (htarget : localIdValid target = true) (hsource : localIdValid source = true)
    (hwithin : Within (Via table.SearchStep table.locks.keys.toFinset) n
      source target) (hfuel : n < fuel) :
    hasDeadlockPath table.locks table.waiting target fuel source = true := by
  induction n generalizing source fuel with
  | zero =>
    obtain ⟨fuel, rfl⟩ := Nat.exists_eq_succ_of_ne_zero (Nat.ne_of_gt hfuel)
    obtain rfl : source = target := hwithin
    simp [hasDeadlockPath, hsource]
  | succ n ih =>
    obtain ⟨fuel, rfl⟩ := Nat.exists_eq_succ_of_ne_zero (Nat.ne_of_gt (Nat.zero_lt_of_lt hfuel))
    rw [hasDeadlockPath]
    by_cases hend : source = target
    · simp [htarget, hend]
    obtain ⟨owner, ⟨key, -, wait, hwait, rfl, howner⟩, hrest⟩ := hwithin.resolve_left hend
    have hfound := ih (h.owner_valid howner) hrest (Nat.lt_of_succ_lt_succ hfuel)
    rw [ownersOf] at howner
    split at howner
    · cases howner
    next record hrecord =>
    simp only [hsource, htarget, hend, hwait, hrecord]
    exact any_eq_true.mpr ⟨owner, howner, hfound⟩

/-- The depth the search goes to is enough. -/
theorem hasDeadlockPath_of_reach (h : table.Sound)
    (hsource : localIdValid source = true) (htarget : localIdValid target = true)
    (hreach : ReflTransGen table.WaitsFor source target) :
    hasDeadlockPath table.locks table.waiting target (Map.size table.locks + 2) source = true := by
  have hvia : ReflTransGen (Via table.SearchStep table.locks.keys.toFinset) source target :=
    ReflTransGen.mono (fun _ _ hab => via_of_mem hab.2) source target hreach
  have hwithin := within_card (fun i j a b c ⟨wait, hwait, hi, _⟩ ⟨wait', hwait', hj, _⟩ => by
      rw [hwait] at hwait'
      rw [← hi, ← hj, Option.some.inj hwait'])
    (fun i a b d c ⟨wait, hwait, hi, _⟩ ⟨_, _, _, hc⟩ => ⟨wait, hwait, hi, hc⟩)
    hvia
  refine hasDeadlockPath_of_within h htarget hsource hwithin ?_
  have hcard := List.toFinset_card_le table.locks.keys
  have hsize : table.locks.keys.length = Map.size table.locks := length_map _
  omega

/-! ## What a step does to the graph -/

theorem waitedOwners_erase (h : owner ∈ { table with
      waiting := table.waiting.erase id }.waitedOwners waiter) :
    waiter ≠ id ∧ owner ∈ table.waitedOwners waiter := by
  rw [waitedOwners, Map.lookup_erase_if] at h
  by_cases hid : waiter = id
  · rw [if_pos hid] at h
    cases h
  · rw [if_neg hid] at h
    exact ⟨hid, h⟩

/-- A grant adds edges into the requester, which waits no more. -/
theorem acyclic_grant (hacyclic : Acyclic table.WaitsFor) (howners : ∀ owner ∈ record.owners,
      owner ∈ ownersOf table.locks request.resourceKey ∨ owner = request.requester) :
    Acyclic (table.grant request record).WaitsFor := by
  have hedge : ∀ waiter owner, owner ∈ (table.grant request record).waitedOwners
      waiter → waiter ≠ request.requester ∧
        (owner ∈ table.waitedOwners waiter ∨ owner = request.requester) := by
    intro waiter owner h
    obtain ⟨hne, h⟩ := @waitedOwners_erase
      { table with locks := table.locks.insert request.resourceKey record }
      _ _ _ h
    refine ⟨hne, ?_⟩
    rw [waitedOwners] at h ⊢
    split at h
    · cases h
    next wait hwait =>
    rw [ownersOf, Map.lookup_insert_if] at h
    simp only [hwait]
    by_cases hkey : wait.request.resourceKey = request.resourceKey
    · rw [if_pos hkey] at h
      rw [hkey]
      exact howners owner h
    · rw [if_neg hkey] at h
      exact .inl h
  refine acyclic_of_in (x := request.requester) hacyclic ?_ ?_
  · intro waiter owner h
    exact (hedge waiter owner h.2).2.imp_left fun hold => ⟨h.1, hold⟩
  · intro owner h
    exact (hedge _ owner h.2).1 rfl

/-- A queued request closes a cycle with every owner that waits for it. -/
theorem acyclic_queue_iff (hacyclic : Acyclic table.WaitsFor)
    (hfound : table.locks.lookup request.resourceKey = some record) :
    Acyclic (table.queue request blocker preserved count).WaitsFor ↔
      ∀ owner ∈ record.owners, owner ≠ request.requester →
        ¬ReflTransGen table.WaitsFor owner request.requester := by
  have hothers : ∀ waiter, waiter ≠ request.requester →
      (table.queue request blocker preserved count).waitedOwners waiter =
        table.waitedOwners waiter := by
    intro waiter hne
    rw [waitedOwners, waitedOwners, queue, Map.lookup_insert_if, if_neg hne]
  have hown : (table.queue request blocker preserved count).waitedOwners
      request.requester = record.owners := by
    rw [waitedOwners, queue, Map.lookup_insert_if, if_pos rfl]
    exact ownersOf_eq hfound
  rw [acyclic_iff_of_out (x := request.requester) hacyclic]
  · constructor
    · intro h owner howner hne
      exact h owner ⟨hne, hown ▸ howner⟩
    · intro h owner howner
      exact h owner (hown ▸ howner.2) howner.1
  · rintro waiter owner hne ⟨hself, h⟩
    exact ⟨hself, hothers waiter hne ▸ h⟩
  · rintro waiter owner hne ⟨hself, h⟩
    exact ⟨hself, (hothers waiter hne).symm ▸ h⟩

/-! ## Which requests are covered -/

/-- The other owners that no search starts from, if the request queues behind a
waiter and if it does not. -/
def unsearchedOwners (record : LockRecord) (requester : Nat) (behind : Bool) : List Nat :=
  record.owners.filter fun owner =>
    owner != requester && (behind || owner != record.firstBlockingOwner requester)

theorem forall_unsearched {behind : Bool} {P : Nat → Prop}
    (h : ∀ owner ∈ record.owners, owner ≠ requester → P owner) :
    ∀ owner ∈ unsearchedOwners record requester behind, P owner := by
  intro owner howner
  simp only [unsearchedOwners, mem_filter, Bool.and_eq_true, bne_iff_ne] at howner
  exact h owner howner.1 howner.2.1

/-- The request passes its checks, the record does not serve it, and there is room
for one more wait: behind another waiter, or for an owner from which no search leads
back to the requester. -/
structure Queues (table : LocalTransactionLockTable) (request : TransactionLockRequest)
    (preserved : Nat) (record : LockRecord) : Prop where
  requester : localIdValid request.requester = true
  resourceKey : request.resourceKey.isEmpty = false
  mode : request.mode ≠ .unknown
  active : request.transactionActive = true
  serves : record.serves request = false
  inTime : request.waitPolicy.deadlineExpired = false
  room : table.refusesWaits = false
  owner : table.priorWaiter record request preserved = none →
    record.compatibleWithExisting request.requester request.mode = false ∧
      hasDeadlockPath table.locks table.waiting request.requester
        (Map.size table.locks + 2) (record.firstBlockingOwner request.requester) = false

theorem waitRequired_iff (hfound : table.locks.lookup request.resourceKey = some record) :
    (table.acquireInternal request preserved).1.decision = .waitRequired ↔
      table.Queues request preserved record := by
  rw [acquireInternal, hfound]
  split
  · next hcheck =>
    refine iff_of_false (by simp [lockError]) fun h => ?_
    simp [h.requester, h.resourceKey, h.mode, h.active] at hcheck
  next hcheck =>
  simp only [Bool.or_eq_true, Bool.not_eq_true', beq_iff_eq, not_or, Bool.not_eq_false] at hcheck
  obtain ⟨⟨⟨hrequester, hkey⟩, hmode⟩, hactive⟩ := hcheck
  have hkey := Bool.eq_false_iff.mpr hkey
  rw [if_neg (by simp)]
  dsimp only
  split
  · next hserves => exact iff_of_false (by simp) fun h => Bool.false_ne_true (h.serves ▸ hserves)
  next hserves =>
  have hserves : record.serves request = false := Bool.eq_false_iff.mpr hserves
  split
  · next prior hprior =>
    rw [waitFairly]
    split
    · next hexpired =>
      refine iff_of_false ?_ fun h => Bool.false_ne_true (h.inTime ▸ hexpired)
      split <;> simp [lockError]
    next hopen =>
    split
    · next hfull =>
      exact iff_of_false (by simp [lockError]) fun h => Bool.false_ne_true (h.room ▸ hfull)
    · next hroom =>
      refine iff_of_true rfl ⟨hrequester, hkey, hmode, hactive, hserves,
        Bool.eq_false_iff.mpr hopen, Bool.eq_false_iff.mpr hroom, fun hnone => ?_⟩
      rw [hprior] at hnone
      cases hnone
  next hprior =>
  split
  · next hcompatible =>
    exact iff_of_false (by simp) fun h => Bool.false_ne_true ((h.owner hprior).1 ▸ hcompatible)
  next hcompatible =>
  fun_cases table.waitForOwner request preserved record with
  | case1 _ hpath =>
    exact iff_of_false (by simp [lockError]) fun h =>
      Bool.false_ne_true ((h.owner hprior).2 ▸ hpath)
  | case2 _ _ hexpired =>
    exact iff_of_false (by simp [lockError]) fun h => Bool.false_ne_true (h.inTime ▸ hexpired)
  | case3 _ _ _ hfull =>
    exact iff_of_false (by simp [lockError]) fun h => Bool.false_ne_true (h.room ▸ hfull)
  | case4 _ hpath hopen hroom =>
    exact iff_of_true rfl ⟨hrequester, hkey, hmode, hactive, hserves, Bool.eq_false_iff.mpr hopen,
      Bool.eq_false_iff.mpr hroom, fun _ =>
        ⟨Bool.eq_false_iff.mpr hcompatible, Bool.eq_false_iff.mpr hpath⟩⟩

/-- If the request queues, no owner it skips waits for it. -/
def CoveredRequest (table : LocalTransactionLockTable)
    (request : TransactionLockRequest) (preserved : Nat) : Prop :=
  ∀ record, table.locks.lookup request.resourceKey = some record →
    table.Queues request preserved record →
      ∀ owner ∈ unsearchedOwners record request.requester
          (table.priorWaiter record request preserved).isSome,
        ¬ReflTransGen table.WaitsFor owner request.requester

def Covered (table : LocalTransactionLockTable) : LockOperation → Prop
  | .acquire request => table.CoveredRequest request 0
  | .retry requester =>
    ∀ wait, table.waiting.lookup requester = some wait →
      { table with waiting := table.waiting.erase requester }.CoveredRequest
        wait.request wait.waitSequence
  | _ => True

theorem acyclic_acquireInternal_iff (hsound : table.Sound) (hacyclic : Acyclic table.WaitsFor) :
    Acyclic (table.acquireInternal request preserved).2.WaitsFor ↔
      table.CoveredRequest request preserved := by
  have hqueues : table.CoveredRequest request preserved ↔
      ∀ record, table.locks.lookup request.resourceKey = some record →
        (table.acquireInternal request preserved).1.decision = .waitRequired →
          ∀ owner ∈ unsearchedOwners record request.requester
              (table.priorWaiter record request preserved).isSome,
            ¬ReflTransGen table.WaitsFor owner request.requester :=
    forall₂_congr fun record hfound => imp_congr_left (waitRequired_iff hfound).symm
  rw [hqueues]
  have houtcome := acquireInternal_outcome table request preserved
  generalize table.acquireInternal request preserved = after at houtcome ⊢
  cases houtcome with
  | refused hdecision =>
    exact iff_of_true hacyclic fun _ _ hwait => absurd hwait hdecision.2.2
  | fresh =>
    refine iff_of_true (acyclic_grant hacyclic fun owner howner => ?_) fun _ _ => nofun
    exact .inr (mem_singleton.mp howner)
  | owned _ hfound =>
    refine iff_of_true (acyclic_grant hacyclic fun owner howner => ?_) fun _ _ => nofun
    rw [LockRecord.raise_owners] at howner
    exact .inl (ownersOf_eq hfound ▸ howner)
  | joined hvalid hfound hserves hcompatible =>
    refine iff_of_true (acyclic_grant hacyclic fun owner howner => ?_) fun _ _ => nofun
    rw [((hsound.locks _ _ hfound).joined hvalid hserves hcompatible).2] at howner
    rcases mem_append.mp howner with hold | hnew
    · exact .inl (ownersOf_eq hfound ▸ hold)
    · exact .inr (mem_singleton.mp hnew)
  | @behind record _ _ _ _ hfound hprior hdecision =>
    rw [acyclic_queue_iff hacyclic hfound]
    constructor
    · intro h record' hfound' _
      rw [hfound] at hfound'
      cases hfound'
      exact forall_unsearched h
    · intro h owner howner hne
      refine h record hfound hdecision owner ?_
      simp only [unsearchedOwners, hprior, Option.isSome_some, Bool.true_or,
        Bool.and_true, mem_filter, bne_iff_ne]
      exact ⟨howner, hne⟩
  | @blocked record _ _ hvalid hfound hprior hpath hdecision =>
    rw [acyclic_queue_iff hacyclic hfound]
    constructor
    · intro h record' hfound' _
      rw [hfound] at hfound'
      cases hfound'
      exact forall_unsearched h
    · intro h owner howner hne
      by_cases hfirst : owner = record.firstBlockingOwner request.requester
      · -- this is the owner the search starts from
        intro hreach
        have htrue := hasDeadlockPath_of_reach hsound
          ((hsound.locks _ _ hfound).valid owner howner) hvalid.requester hreach
        rw [hfirst, hpath] at htrue
        exact Bool.false_ne_true htrue
      · refine h record hfound hdecision owner ?_
        simp only [unsearchedOwners, hprior, Option.isSome_none,
          Bool.false_or, mem_filter, Bool.and_eq_true, bne_iff_ne]
        exact ⟨howner, hne, hfirst⟩

theorem ownersOf_dropOwner {resourceKey : String}
    (h : owner ∈ ownersOf (dropOwner id locks resourceKey) key) : owner ∈ ownersOf locks key := by
  rw [dropOwner] at h
  split at h
  · exact h
  next record hrecord =>
  split at h
  · rw [ownersOf, Map.lookup_erase_if] at h
    by_cases hkey : key = resourceKey
    · rw [if_pos hkey] at h
      cases h
    · rw [if_neg hkey] at h
      exact h
  · rw [ownersOf, Map.lookup_insert_if] at h
    by_cases hkey : key = resourceKey
    · rw [if_pos hkey] at h
      rw [ownersOf, hkey, hrecord]
      exact (mem_filter.mp h).1
    · rw [if_neg hkey] at h
      exact h

theorem ownersOf_dropOwners (keys : List String)
    (h : owner ∈ ownersOf (keys.foldl (dropOwner id) locks) key) : owner ∈ ownersOf locks key := by
  induction keys generalizing locks with
  | nil => exact h
  | cons first keys ih => exact ownersOf_dropOwner (ih h)

/-- A release only removes edges. -/
theorem acyclic_release (hacyclic : Acyclic table.WaitsFor)
    (hlocks : ∀ key owner, owner ∈ ownersOf locks key → owner ∈ ownersOf table.locks key) :
    Acyclic { table with
      locks := locks, waiting := table.waiting.erase id }.WaitsFor := by
  refine hacyclic.mono fun waiter owner h => ⟨h.1, ?_⟩
  obtain ⟨-, h⟩ := @waitedOwners_erase { table with locks := locks } _ _ _ h.2
  rw [waitedOwners] at h ⊢
  split at h
  · cases h
  · next wait hwait =>
    simp only [hwait]
    exact hlocks _ _ h

theorem acyclic_apply_iff (hsound : table.Sound)
    (hacyclic : Acyclic table.WaitsFor) (operation : LockOperation) :
    Acyclic (table.apply operation).2.WaitsFor ↔ table.Covered operation := by
  cases operation with
  | setAdmissionPolicy policy => exact iff_of_true hacyclic trivial
  | acquire request => exact acyclic_acquireInternal_iff hsound hacyclic
  | retry requester =>
    rw [LocalTransactionLockTable.apply, retry, Covered]
    cases hwait : table.waiting.lookup requester with
    | none => exact iff_of_true hacyclic fun wait h => absurd h (by simp)
    | some wait =>
      have herased : Acyclic { table with
          waiting := table.waiting.erase requester }.WaitsFor :=
        acyclic_release hacyclic fun _ _ h => h
      refine (acyclic_acquireInternal_iff hsound.erase_waiting
        herased).trans ⟨fun h wait' hwait' => ?_, fun h => h wait rfl⟩
      cases hwait'
      exact h
  | release owner resourceKey =>
    rw [LocalTransactionLockTable.apply, release]
    refine iff_of_true ?_ trivial
    split
    · exact hacyclic
    split
    · exact hacyclic
    · exact acyclic_release hacyclic fun _ _ h => ownersOf_dropOwner h
  | releaseAll owner =>
    refine iff_of_true ?_ trivial
    exact acyclic_release hacyclic fun _ _ h => ownersOf_dropOwners _ h

theorem acyclic_empty : Acyclic (WaitsFor {}) := by
  intro a ha
  obtain ⟨b, hab, -⟩ := TransGen.head'_iff.mp ha
  exact absurd hab.2 not_mem_nil

/-- The graph stays without a cycle through exactly the runs whose steps are all
covered. -/
theorem waitGraph_acyclic_iff (operations : List LockOperation) :
    (∀ done, done <+: operations → Acyclic (run done).WaitsFor) ↔
      ∀ done operation, done ++ [operation] <+: operations → (run done).Covered operation := by
  constructor
  · intro h done operation hprefix
    have hdone : done <+: operations := (prefix_append done [operation]).trans hprefix
    rw [← acyclic_apply_iff (sound_run done) (h done hdone), ← run_append]
    exact h _ hprefix
  · intro h done
    induction done using List.reverseRecOn with
    | nil => exact fun _ => acyclic_empty
    | append_singleton done operation ih =>
      intro hprefix
      have hdone := ih ((prefix_append done [operation]).trans hprefix)
      rw [run_append, acyclic_apply_iff (sound_run done) hdone]
      exact h done operation hprefix

/-- 1 and 2 share `r`, and 2 waits for 3 on `x`. When 3 asks for `r`, the search
starts from 1. -/
def secondOwnerWaits : List LockOperation :=
  [.acquire (patientRequest 1 "r" .shared), .acquire (patientRequest 2 "r" .shared),
   .acquire (patientRequest 3 "x" .exclusive), .acquire (patientRequest 2 "x" .exclusive),
   .acquire (patientRequest 3 "r" .exclusive)]

/-- 1 waits for 2 on `b`, and 3 for 1 on `a`. When 2 asks for `a`, it queues
behind 3, and nothing is searched. -/
def fairQueue : List LockOperation :=
  [.acquire (patientRequest 1 "a" .exclusive), .acquire (patientRequest 2 "b" .exclusive),
   .acquire (patientRequest 1 "b" .exclusive), .acquire (patientRequest 3 "a" .exclusive),
   .acquire (patientRequest 2 "a" .exclusive)]

/-- Each of the two omissions lets a deadlock through. -/
theorem lockTable_deadlocks :
    ¬Acyclic (run secondOwnerWaits).WaitsFor ∧ ¬Acyclic (run fairQueue).WaitsFor := by
  have hsecond : (run secondOwnerWaits).WaitsFor 2 3 ∧ (run secondOwnerWaits).WaitsFor 3 2 := by
    decide +kernel
  have hfair : (run fairQueue).WaitsFor 1 2 ∧ (run fairQueue).WaitsFor 2 1 := by decide +kernel
  exact ⟨fun h => h 2 (TransGen.tail (.single hsecond.1) hsecond.2),
    fun h => h 1 (TransGen.tail (.single hfair.1) hfair.2)⟩

end LocalTransactionLockTable

end ScratchBird.Mga
