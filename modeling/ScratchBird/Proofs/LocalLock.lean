import Mathlib.Data.List.Induction
import ScratchBird.Mga.LocalLock

/-!
# The lock table excludes

`AcquireOutcome` lists what a request can do: it leaves the table alone, grants
in one of three ways, or queues in one of two. Everything said about runs is read
off it, so the checks of the request are unfolded once.

The three ways to grant differ in what they know about the owners. A fresh record
has the requester alone. An upgrade of an own lock changes the mode only, and it
is exclusive only if nobody else shares the record. A newcomer is admitted to
other owners only in shared mode: the other answer of the compatibility check,
that the requester is the only owner, has been dealt with before it.

A newcomer also waits behind an earlier wait for the resource, even one it could
pass. But the waits are looked at only where the resource has an owner: once the
last owner has gone, whoever calls first is granted.
-/

namespace ScratchBird.Mga

open Lib List

variable {table : LocalTransactionLockTable} {request : TransactionLockRequest}
  {record : LockRecord} {preserved owner : Nat} {locks : Map String LockRecord}
  {prior : WaitingRecord}

/-- The part of a request's check that the table relies on. -/
structure TransactionLockRequest.Valid (request : TransactionLockRequest) : Prop where
  requester : localIdValid request.requester = true
  mode : request.mode ≠ .unknown

/-- The requester has the lock already, in a mode that will do or that can be
raised. -/
def LockRecord.serves (record : LockRecord) (request : TransactionLockRequest) :
    Bool :=
  record.owns request.requester && (record.mode == .exclusive || record.mode == request.mode ||
      record.compatibleWithExisting request.requester request.mode)

inductive AcquireOutcome (table : LocalTransactionLockTable) (request : TransactionLockRequest)
    (preserved : Nat) : TransactionLockResult × LocalTransactionLockTable → Prop where
  | refused {result : TransactionLockResult} (hdecision : result.decision ≠ .granted ∧
        result.decision ≠ .alreadyOwned ∧ result.decision ≠ .waitRequired) :
      AcquireOutcome table request preserved (result, table)
  | fresh (hvalid : request.Valid) (hfree : table.locks.lookup request.resourceKey = none) :
      AcquireOutcome table request preserved
        ({ decision := .granted }, table.grant request
            { owners := [request.requester], mode := request.mode })
  | owned {record : LockRecord} (hvalid : request.Valid)
      (hfound : table.locks.lookup request.resourceKey = some record)
      (hserves : record.serves request = true) : AcquireOutcome table request preserved
        ({ decision := .alreadyOwned }, table.grant request (record.raise request.mode))
  | joined {record : LockRecord} (hvalid : request.Valid)
      (hfound : table.locks.lookup request.resourceKey = some record)
      (hserves : record.serves request = false) (hcompatible :
        record.compatibleWithExisting request.requester request.mode = true) :
      AcquireOutcome table request preserved
        ({ decision := .granted }, table.grant request
            ((record.raise request.mode).addOwner request.requester))
  | behind {record : LockRecord} {prior : WaitingRecord}
      {result : TransactionLockResult} {count : Nat} (hvalid : request.Valid)
      (hfound : table.locks.lookup request.resourceKey = some record)
      (hprior : table.priorWaiter record request preserved = some prior)
      (hdecision : result.decision = .waitRequired) :
      AcquireOutcome table request preserved
        (result, table.queue request prior.request.requester preserved count)
  | blocked {record : LockRecord} {result : TransactionLockResult} {count : Nat}
      (hvalid : request.Valid) (hfound : table.locks.lookup request.resourceKey = some record)
      (hprior : table.priorWaiter record request preserved = none)
      (hpath : hasDeadlockPath table.locks table.waiting request.requester
        (Map.size table.locks + 2) (record.firstBlockingOwner request.requester) = false)
      (hdecision : result.decision = .waitRequired) :
      AcquireOutcome table request preserved (result, table.queue request
          (record.firstBlockingOwner request.requester) preserved count)

section

variable (hvalid : request.Valid) (hfound : table.locks.lookup request.resourceKey = some record)
include hvalid hfound

theorem waitFairly_outcome (hprior : table.priorWaiter record request preserved = some prior) :
    AcquireOutcome table request preserved (table.waitFairly request preserved prior) := by
  rw [LocalTransactionLockTable.waitFairly]
  split
  · split
    · exact .refused (by simp [lockError])
    · exact .refused (by simp [lockError])
  split
  · exact .refused (by simp [lockError])
  · exact .behind hvalid hfound hprior rfl

theorem waitForOwner_outcome (hprior : table.priorWaiter record request preserved = none) :
    AcquireOutcome table request preserved (table.waitForOwner request preserved record) := by
  fun_cases table.waitForOwner request preserved record with
  | case4 _ hpath => exact .blocked hvalid hfound hprior (Bool.eq_false_iff.mpr hpath) rfl
  | _ => exact .refused (by simp [lockError])

end

theorem acquireInternal_outcome (table : LocalTransactionLockTable)
    (request : TransactionLockRequest) (preserved : Nat) :
    AcquireOutcome table request preserved (table.acquireInternal request preserved) := by
  rw [LocalTransactionLockTable.acquireInternal]
  split
  · exact .refused (by simp [lockError])
  next hcheck =>
  simp only [Bool.or_eq_true, Bool.not_eq_true', beq_iff_eq, not_or, Bool.not_eq_false] at hcheck
  have hvalid : request.Valid := ⟨hcheck.1.1.1, hcheck.1.2⟩
  split
  · exact .refused (by simp [lockError])
  split
  · next hfree => exact .fresh hvalid hfree
  next record hfound =>
  split
  · next hserves => exact .owned hvalid hfound hserves
  next hserves =>
  split
  · next prior hprior => exact waitFairly_outcome hvalid hfound hprior
  next hprior =>
  split
  · next hcompatible => exact .joined hvalid hfound (Bool.eq_false_iff.mpr hserves) hcompatible
  · exact waitForOwner_outcome hvalid hfound hprior

/-! ## The invariant -/

structure LockRecord.Sound (record : LockRecord) : Prop where
  nonempty : record.owners ≠ []
  nodup : record.owners.Nodup
  single : record.mode = .exclusive → record.owners.length = 1
  valid : ∀ owner ∈ record.owners, localIdValid owner = true

/-- A waiter is queued under its own number. -/
structure LocalTransactionLockTable.Sound (table : LocalTransactionLockTable) : Prop where
  locks : ∀ key record, table.locks.lookup key = some record → record.Sound
  waiting : ∀ id wait, table.waiting.lookup id = some wait →
    wait.request.requester = id ∧ localIdValid id = true

theorem LockRecord.owns_iff : record.owns owner = true ↔ owner ∈ record.owners := by
  simp [LockRecord.owns]

theorem LockRecord.raise_owners (mode : TransactionLockMode) :
    (record.raise mode).owners = record.owners := by
  rw [LockRecord.raise]
  split <;> rfl

theorem LockRecord.raise_exclusive {mode : TransactionLockMode}
    (h : mode = .exclusive) : (record.raise mode).mode = .exclusive := by
  rw [LockRecord.raise, if_pos h]

/-- A served request is for a shared lock, or its owner has no company. -/
theorem LockRecord.Sound.raise (h : record.Sound) (hserves : record.serves request = true) :
    (record.raise request.mode).Sound := by
  rw [LockRecord.serves, Bool.and_eq_true] at hserves
  obtain ⟨howns, hmode⟩ := hserves
  refine ⟨?_, ?_, ?_, ?_⟩
  · rw [LockRecord.raise_owners]
    exact h.nonempty
  · rw [LockRecord.raise_owners]
    exact h.nodup
  · intro hexclusive
    rw [LockRecord.raise_owners]
    by_cases hheld : record.mode = .exclusive
    · exact h.single hheld
    have hrequested : request.mode = .exclusive := by
      by_contra hne
      rw [LockRecord.raise, if_neg hne] at hexclusive
      exact hheld hexclusive
    simp only [hrequested, beq_iff_eq, hheld, Bool.or_eq_true, false_or,
      LockRecord.compatibleWithExisting] at hmode
    rw [if_neg (by simpa using h.nonempty), if_neg (by simp)] at hmode
    rw [beq_iff_eq.mp hmode]
    rfl
  · rw [LockRecord.raise_owners]
    exact h.valid

/-- Who joins was no owner, and both sides are in shared mode. -/
theorem LockRecord.Sound.newcomer (h : record.Sound) (hserves : record.serves request = false)
    (hcompatible :
      record.compatibleWithExisting request.requester request.mode = true) :
    record.mode = .shared ∧ request.mode = .shared ∧ request.requester ∉ record.owners := by
  have hnew : request.requester ∉ record.owners := by
    intro hmem
    rw [LockRecord.serves, LockRecord.owns_iff.mpr hmem, hcompatible] at hserves
    simp at hserves
  rw [LockRecord.compatibleWithExisting, if_neg (by simpa using h.nonempty)] at hcompatible
  split at hcompatible
  · next hshared => exact ⟨hshared.1, hshared.2, hnew⟩
  · rw [beq_iff_eq] at hcompatible
    rw [hcompatible] at hnew
    exact absurd (mem_singleton.mpr rfl) hnew

theorem LockRecord.Sound.joined (h : record.Sound) (hvalid : request.Valid)
    (hserves : record.serves request = false) (hcompatible :
      record.compatibleWithExisting request.requester request.mode = true) :
    ((record.raise request.mode).addOwner request.requester).Sound ∧
      ((record.raise request.mode).addOwner request.requester).owners =
        record.owners ++ [request.requester] := by
  obtain ⟨hshared, hrequested, hnew⟩ := h.newcomer hserves hcompatible
  have hrecord : (record.raise request.mode).addOwner request.requester =
      { record with owners := record.owners ++ [request.requester] } := by
    rw [LockRecord.raise, if_neg (by simp [hrequested]), LockRecord.addOwner,
      if_neg (by rwa [LockRecord.owns_iff])]
  rw [hrecord]
  refine ⟨⟨by simp, ?_, ?_, ?_⟩, rfl⟩
  · exact List.nodup_append.mpr ⟨h.nodup, nodup_singleton _,
      fun a ha b hb hab => hnew (by rwa [← mem_singleton.mp hb, ← hab])⟩
  · intro hexclusive
    rw [hshared] at hexclusive
    exact TransactionLockMode.noConfusion hexclusive
  · intro owner howner
    rcases mem_append.mp howner with hmem | hmem
    · exact h.valid owner hmem
    · rw [mem_singleton.mp hmem]
      exact hvalid.requester

theorem LockRecord.Sound.removeOwner (h : record.Sound)
    (hrest : (record.removeOwner owner).owners ≠ []) : (record.removeOwner owner).Sound := by
  refine ⟨hrest, h.nodup.filter _, ?_, ?_⟩
  · intro hexclusive
    refine Nat.le_antisymm ?_ (length_pos_iff.mpr hrest)
    rw [← h.single hexclusive]
    exact List.length_filter_le _ _
  · intro o ho
    exact h.valid o (mem_filter.mp ho).1

namespace LocalTransactionLockTable

theorem Sound.grant (h : table.Sound) (hrecord : record.Sound) :
    (table.grant request record).Sound := by
  refine ⟨?_, ?_⟩
  · intro key found hfound
    rw [LocalTransactionLockTable.grant, Map.lookup_insert_if] at hfound
    split at hfound
    · rw [← Option.some.inj hfound]
      exact hrecord
    · exact h.locks key found hfound
  · intro id wait hwait
    rw [LocalTransactionLockTable.grant, Map.lookup_erase_if] at hwait
    split at hwait
    · cases hwait
    · exact h.waiting id wait hwait

theorem Sound.queue (h : table.Sound) (hvalid : request.Valid) {blocker count : Nat} :
    (table.queue request blocker preserved count).Sound := by
  refine ⟨h.locks, ?_⟩
  intro id wait hwait
  rw [LocalTransactionLockTable.queue, Map.lookup_insert_if] at hwait
  split at hwait
  · next hid =>
    rw [← Option.some.inj hwait, hid]
    exact ⟨rfl, hvalid.requester⟩
  · exact h.waiting id wait hwait

theorem Sound.erase_waiting (h : table.Sound) :
    { table with waiting := table.waiting.erase owner }.Sound := by
  refine ⟨h.locks, ?_⟩
  intro id wait hwait
  rw [Map.lookup_erase_if] at hwait
  split at hwait
  · cases hwait
  · exact h.waiting id wait hwait

theorem Sound.acquireInternal (h : table.Sound) :
    (table.acquireInternal request preserved).2.Sound := by
  have houtcome := acquireInternal_outcome table request preserved
  generalize table.acquireInternal request preserved = after at houtcome
  cases houtcome with
  | refused => exact h
  | fresh hvalid =>
    refine h.grant ⟨by simp, by simp, fun _ => rfl, ?_⟩
    intro owner howner
    rw [mem_singleton.mp howner]
    exact hvalid.requester
  | owned _ hfound hserves => exact h.grant ((h.locks _ _ hfound).raise hserves)
  | joined hvalid hfound hserves hcompatible =>
    exact h.grant ((h.locks _ _ hfound).joined hvalid hserves hcompatible).1
  | behind hvalid => exact h.queue hvalid
  | blocked hvalid => exact h.queue hvalid

section

variable (h : ∀ key record, locks.lookup key = some record → record.Sound)
include h

theorem sound_dropOwner (resourceKey : String) :
    ∀ key record, (dropOwner owner locks resourceKey).lookup key = some record →
      record.Sound := by
  intro key found hfound
  rw [dropOwner] at hfound
  split at hfound
  · exact h key found hfound
  next record hrecord =>
  split at hfound
  · rw [Map.lookup_erase_if] at hfound
    split at hfound
    · cases hfound
    · exact h key found hfound
  · next hrest =>
    rw [Map.lookup_insert_if] at hfound
    split at hfound
    · rw [← Option.some.inj hfound]
      exact (h _ _ hrecord).removeOwner (by simpa using hrest)
    · exact h key found hfound

theorem sound_dropOwners (keys : List String) :
    ∀ key record, (keys.foldl (dropOwner owner) locks).lookup key = some record →
      record.Sound := by
  induction keys generalizing locks with
  | nil => exact h
  | cons key keys ih => exact ih (sound_dropOwner h key)

end

theorem Sound.release (h : table.Sound) {resourceKey : String} :
    (table.release owner resourceKey).2.Sound := by
  rw [LocalTransactionLockTable.release]
  split
  · exact h
  split
  · exact h
  · exact ⟨sound_dropOwner h.locks resourceKey, h.erase_waiting.waiting⟩

theorem Sound.apply (h : table.Sound) (operation : LockOperation) :
    (table.apply operation).2.Sound := by
  cases operation with
  | setAdmissionPolicy policy => exact ⟨h.locks, h.waiting⟩
  | acquire request => exact h.acquireInternal
  | retry requester =>
    rw [LocalTransactionLockTable.apply, retry]
    split
    · exact h
    · exact h.erase_waiting.acquireInternal
  | release owner resourceKey => exact h.release
  | releaseAll owner => exact ⟨sound_dropOwners h.locks table.locks.keys, h.erase_waiting.waiting⟩

theorem sound_empty : Sound {} := by
  refine ⟨?_, ?_⟩
  · intro key record hrecord
    cases hrecord
  · intro id wait hwait
    cases hwait

theorem run_append (operations : List LockOperation) (operation : LockOperation) :
    run (operations ++ [operation]) = ((run operations).apply operation).2 := by
  rw [run, foldl_append]
  rfl

theorem sound_run (operations : List LockOperation) : (run operations).Sound := by
  induction operations using List.reverseRecOn with
  | nil => exact sound_empty
  | append_singleton operations operation ih =>
    rw [run_append]
    exact ih.apply operation

/-! ## Grants -/

/-- The request a call decides: its own, or the one its requester is queued
with. -/
def requestOf (table : LocalTransactionLockTable) : LockOperation → Option TransactionLockRequest
  | .acquire request => some request
  | .retry requester => (table.waiting.lookup requester).map (·.request)
  | _ => none

theorem Sound.held_of_granted (h : table.Sound) {result : TransactionLockResult}
    (hresult : (table.acquireInternal request preserved).1 = result)
    (hdecision : result.decision = .granted ∨ result.decision = .alreadyOwned) :
    ∃ record, (table.acquireInternal request preserved).2.locks.lookup
        request.resourceKey = some record ∧
      request.requester ∈ record.owners ∧
      (request.mode = .exclusive → record.mode = .exclusive) := by
  have houtcome := acquireInternal_outcome table request preserved
  generalize table.acquireInternal request preserved = after at houtcome hresult
  subst hresult
  cases houtcome with
  | refused hrefused => exact absurd hdecision (not_or.mpr ⟨hrefused.1, hrefused.2.1⟩)
  | fresh => exact ⟨_, AList.lookup_insert _, mem_singleton_self _, id⟩
  | owned _ _ hserves =>
    refine ⟨_, AList.lookup_insert _, ?_, LockRecord.raise_exclusive⟩
    rw [LockRecord.raise_owners]
    exact LockRecord.owns_iff.mp (Bool.and_eq_true_iff.mp hserves).1
  | joined hvalid hfound hserves hcompatible =>
    have hrecord := h.locks _ _ hfound
    refine ⟨_, AList.lookup_insert _, ?_, ?_⟩
    · rw [(hrecord.joined hvalid hserves hcompatible).2]
      exact mem_append_right _ (mem_singleton_self _)
    · intro hexclusive
      rw [(hrecord.newcomer hserves hcompatible).2.1] at hexclusive
      exact TransactionLockMode.noConfusion hexclusive
  | behind _ _ _ hwait =>
    rw [hwait] at hdecision
    exact absurd hdecision nofun
  | blocked _ _ _ _ hwait =>
    rw [hwait] at hdecision
    exact absurd hdecision nofun

/-- After any run the owners of a lock are as its mode says, and a call that
grants leaves the requester among them, in the mode it asked for. -/
theorem lockTable_excludes (operations : List LockOperation) :
    (∀ key record, (run operations).locks.lookup key = some record →
      record.owners ≠ [] ∧ record.owners.Nodup ∧
        (record.mode = .exclusive → record.owners.length = 1)) ∧
    ∀ operation request result, (run operations).requestOf operation = some request →
      ((run operations).apply operation).1 = some result →
      result.decision = .granted ∨ result.decision = .alreadyOwned →
      (∀ requester, operation = .retry requester → request.requester = requester) ∧
      ∃ record, ((run operations).apply operation).2.locks.lookup
          request.resourceKey = some record ∧
        request.requester ∈ record.owners ∧
        (request.mode = .exclusive → record.mode = .exclusive) := by
  have hsound := sound_run operations
  refine ⟨fun key record hrecord => ?_, ?_⟩
  · have h := hsound.locks key record hrecord
    exact ⟨h.nonempty, h.nodup, h.single⟩
  intro operation request result hrequest hresult hdecision
  cases operation with
  | acquire request' =>
    cases hrequest
    refine ⟨fun requester heq => LockOperation.noConfusion heq, ?_⟩
    exact hsound.held_of_granted (Option.some.inj hresult) hdecision
  | retry requester =>
    obtain ⟨wait, hwait, rfl⟩ := Option.map_eq_some_iff.mp hrequest
    refine ⟨fun requester' heq => ?_, ?_⟩
    · rw [(hsound.waiting requester wait hwait).1]
      exact LockOperation.retry.inj heq
    · rw [LocalTransactionLockTable.apply, retry, hwait] at hresult ⊢
      exact hsound.erase_waiting.held_of_granted (Option.some.inj hresult) hdecision
  | setAdmissionPolicy | release | releaseAll => cases hrequest

/-- A request that is willing to wait a minute. -/
def patientRequest (requester : Nat) (resourceKey : String)
    (mode : TransactionLockMode) : TransactionLockRequest where
  requester
  resourceKey
  mode
  waitPolicy := { timeoutMillis := 60000, noWait := false }

/-- Two readers, a writer that queues, and the readers gone. -/
def readersThenWriter : List LockOperation :=
  [.acquire (patientRequest 1 "r" .shared), .acquire (patientRequest 2 "r" .shared),
   .acquire (patientRequest 3 "r" .exclusive), .release 1 "r", .releaseAll 2]

theorem readersThenWriter_excludes :
    ∃ record, ((run readersThenWriter).apply (.retry 3)).2.locks.lookup "r" =
        some record ∧ 3 ∈ record.owners ∧ record.mode = .exclusive := by
  obtain ⟨-, record, hrecord, howner, hmode⟩ :=
    (lockTable_excludes readersThenWriter).2 (.retry 3)
      (patientRequest 3 "r" .exclusive) { decision := .granted }
      (by decide +kernel) (by decide +kernel) (.inl rfl)
  exact ⟨record, hrecord, howner, hmode rfl⟩

/-! ## The queue -/

/-- A wait of another transaction that comes before the request. A first attempt,
numbered zero, comes after every wait there is. -/
def Precedes (wait : WaitingRecord) (request : TransactionLockRequest) (sequence : Nat) : Prop :=
  wait.request.resourceKey = request.resourceKey ∧ wait.request.requester ≠ request.requester ∧
    (sequence = 0 ∨ wait.waitSequence < sequence)

/-- The request is well formed, and the table takes another lock. -/
structure Admits (table : LocalTransactionLockTable) (request : TransactionLockRequest) : Prop where
  requester : localIdValid request.requester = true
  resourceKey : request.resourceKey.isEmpty = false
  mode : request.mode ≠ .unknown
  active : request.transactionActive = true
  room : table.admissionPolicy.maxHeldLocks = 0 ∨
    Map.size table.locks < table.admissionPolicy.maxHeldLocks

theorem foldl_earlierWaiter_isSome {waits : List WaitingRecord} {earliest : Option WaitingRecord}
    (h : earliest.isSome ∨ ∃ wait ∈ waits, Precedes wait request preserved) :
    (waits.foldl (earlierWaiter request.resourceKey request.requester preserved)
      earliest).isSome := by
  induction waits generalizing earliest with
  | nil => simpa using h
  | cons wait waits ih =>
    have hrest : ¬Precedes wait request preserved →
        earliest.isSome ∨ ∃ wait ∈ waits, Precedes wait request preserved := by
      intro hnot
      refine h.imp_right ?_
      rintro ⟨first, hmem, hfirst⟩
      rcases mem_cons.mp hmem with rfl | hmem
      · exact absurd hfirst hnot
      · exact ⟨first, hmem, hfirst⟩
    refine ih ?_
    rw [earlierWaiter.eq_def]
    split
    · next hother => exact hrest fun h => hother.elim (absurd h.1) h.2.1
    split
    · next hlater =>
      refine hrest fun h => ?_
      have hsequence := h.2.2
      omega
    split
    · exact .inl rfl
    · split <;> exact .inl rfl

theorem waitFairly_not_granted :
    (table.waitFairly request preserved prior).1.decision ≠ .granted := by
  rw [waitFairly]
  split
  · split <;> simp [lockError]
  split <;> simp [lockError, waitResult]

/-- A request by one who is no owner passes a wait before it only where the
resource is free. -/
theorem granted_past_wait_iff {wait : WaitingRecord} {id : Nat}
    (hwait : table.waiting.lookup id = some wait) (hprecedes : Precedes wait request preserved)
    (hnew : ∀ record, table.locks.lookup request.resourceKey = some record →
      request.requester ∉ record.owners) :
    (table.acquireInternal request preserved).1.decision = .granted ↔
      table.locks.lookup request.resourceKey = none ∧ table.Admits request := by
  rw [acquireInternal]
  split
  · next hcheck =>
    refine iff_of_false (by simp [lockError]) ?_
    rintro ⟨-, hadmits⟩
    simp [hadmits.requester, hadmits.resourceKey, hadmits.mode, hadmits.active] at hcheck
  next hcheck =>
  simp only [Bool.or_eq_true, Bool.not_eq_true', beq_iff_eq, not_or, Bool.not_eq_false] at hcheck
  obtain ⟨⟨⟨hrequester, hkey⟩, hmode⟩, hactive⟩ := hcheck
  split
  · next hfull =>
    refine iff_of_false (by simp [lockError]) ?_
    rintro ⟨-, hadmits⟩
    have hroom := hadmits.room
    omega
  next hroom =>
  split
  · next hfree =>
    refine iff_of_true rfl ⟨hfree, hrequester, Bool.eq_false_iff.mpr hkey, hmode, hactive, ?_⟩
    by_contra hfull
    exact hroom ⟨by omega, by omega, hfree⟩
  next record hfound =>
  have howns : record.owns request.requester = false := by
    rw [Bool.eq_false_iff, Ne, LockRecord.owns_iff]
    exact hnew record hfound
  refine iff_of_false ?_ (fun h => by simp [hfound] at h)
  have hprior : (table.priorWaiter record request preserved).isSome := by
    rw [priorWaiter, howns]
    exact foldl_earlierWaiter_isSome (.inr ⟨wait, Map.mem_values.mpr ⟨id, hwait⟩, hprecedes⟩)
  obtain ⟨prior, hprior⟩ := Option.isSome_iff_exists.mp hprior
  rw [howns, hprior]
  exact waitFairly_not_granted

/-- The place of a call in the queue: a retry has that of its wait. -/
def sequenceOf (table : LocalTransactionLockTable) : LockOperation → Nat
  | .retry requester => ((table.waiting.lookup requester).map (·.waitSequence)).getD 0
  | _ => 0

/-- After any run, a call for a transaction that does not own the resource, while
another's wait for it was queued before: it is granted exactly when the resource
is free. Where the resource has an owner nobody is passed. -/
theorem granted_past_queue_iff (operations : List LockOperation) (operation : LockOperation)
    (request : TransactionLockRequest)
    (hrequest : (run operations).requestOf operation = some request) (id : Nat)
    (wait : WaitingRecord) (hwait : (run operations).waiting.lookup id = some wait)
    (hprecedes : Precedes wait request ((run operations).sequenceOf operation))
    (hnew : ∀ record, (run operations).locks.lookup request.resourceKey = some record →
      request.requester ∉ record.owners) :
    (∃ result, ((run operations).apply operation).1 = some result ∧ result.decision = .granted) ↔
      (run operations).locks.lookup request.resourceKey = none ∧
        (run operations).Admits request := by
  have hsome : ∀ answer : TransactionLockResult, (∃ result, some answer = some result ∧
      result.decision = .granted) ↔ answer.decision = .granted := by
    simp
  cases operation with
  | acquire request' =>
    cases hrequest
    exact (hsome _).trans (granted_past_wait_iff hwait hprecedes hnew)
  | retry requester =>
    obtain ⟨own, hown, rfl⟩ := Option.map_eq_some_iff.mp hrequest
    rw [sequenceOf, hown] at hprecedes
    have hid : id ≠ requester := by
      rintro rfl
      rw [hwait] at hown
      rw [Option.some.inj hown] at hprecedes
      exact hprecedes.2.1 rfl
    have hpast := @granted_past_wait_iff
      { run operations with waiting := (run operations).waiting.erase requester } own.request
      own.waitSequence wait id (Map.lookup_erase_iff.mpr ⟨hid, hwait⟩) hprecedes hnew
    rw [apply, retry, hown]
    refine (hsome _).trans (hpast.trans ?_)
    exact and_congr_right fun _ => ⟨fun h => { h with }, fun h => { h with }⟩
  | setAdmissionPolicy | release | releaseAll => cases hrequest

/-- A writer queues behind another, which then goes. -/
def waiterLeft : List LockOperation :=
  [.acquire (patientRequest 1 "r" .exclusive), .acquire (patientRequest 2 "r" .exclusive),
   .release 1 "r"]

/-- A third comes and is granted what the second waits for. -/
theorem newcomer_passes_waiter :
    ∃ wait, (run waiterLeft).waiting.lookup 2 = some wait ∧ wait.request.resourceKey = "r" ∧
      (run waiterLeft).locks.lookup "r" = none ∧
      ((run waiterLeft).apply (.acquire (patientRequest 3 "r" .exclusive))).1.map (·.decision) =
        some .granted := by
  decide +kernel

/-- A reader would be compatible with the reader that owns the resource, and yet
waits for the writer. -/
theorem reader_waits_behind_writer :
    ¬∃ result, ((run (readersThenWriter.take 3)).apply
      (.acquire (patientRequest 4 "r" .shared))).1 = some result ∧ result.decision = .granted := by
  rw [granted_past_queue_iff (readersThenWriter.take 3) (.acquire (patientRequest 4 "r" .shared))
    (patientRequest 4 "r" .shared) rfl 3 ⟨patientRequest 3 "r" .exclusive, 1, 1, 0⟩
    (by decide +kernel) ⟨rfl, by decide, .inl rfl⟩ (by decide +kernel)]
  exact fun h => absurd h.1 (by decide +kernel)

end LocalTransactionLockTable

end ScratchBird.Mga
