import ScratchBird.Proofs.LockDeadlock

/-!
# What an answer of the lock wait lifecycle promises

An owner that asks again for a resource it holds is told so, whatever mode it asks
for and whatever mode it holds. So the answer promises the asked mode only if the
grant is new, or an older one already keeps out what the mode would keep out. A new
grant is in the table because its identifier, which ends in its number, is fresh.

The deadline is computed twice. A request is refused when the time since it was
made reaches the timeout, and only under the policies that have one. A wait is
timed out when the sum of the two, modulo 2^64, is reached, under every policy.
-/

namespace ScratchBird.Mga

open Lib Relation

namespace MGALockWaitLifecycle

variable {s s' : MGALockWaitLifecycle} {request : MGALockRequest} {id : String} {now : Nat}
  {w : WaitRecord} {operations : List LockWaitOperation}

/-! ## The asked mode -/

/-- The owner holds a grant on the resource that conflicts with all that the asked
mode conflicts with. -/
def Covers (s : MGALockWaitLifecycle) (request : MGALockRequest) : Prop :=
  ∃ id g, s.grants.lookup id = some g ∧ g.resourceKey = request.resourceKey ∧
    request.sameOwner g.grant = true ∧ ∀ mode, mgaLockModesCompatible request.mode mode = false →
      mgaLockModesCompatible g.grant.grantedMode mode = false

/-- Grants are numbered up to the last one. -/
def Numbered (s : MGALockWaitLifecycle) : Prop :=
  ∀ id g, s.grants.lookup id = some g →
    ∃ requestId n, n ≤ s.generation ∧ id = makeGrantId requestId n

theorem Numbered.move (h : Numbered s) (hmove : Move s s') : Numbered s' := by
  intro id g hg
  cases hmove with
  | grant =>
    rcases lookup_addGrant hg with hold | ⟨rfl, rfl⟩
    · obtain ⟨requestId, n, hn, hid⟩ := h id g hold
      exact ⟨requestId, n, Nat.le_succ_of_le hn, hid⟩
    · exact ⟨_, _, Nat.le_refl _, rfl⟩
  | dropGrants hsub => exact h id g (hsub id g hg)
  | shutdown => cases hg
  | enqueue | removeWait | dropWaits | refresh => exact h id g hg

theorem numbered_run (operations : List LockWaitOperation) : Numbered (run operations) := by
  refine run_induction ?_ (fun _ _ hmove h => h.move hmove) operations
  intro id g hg
  cases hg

theorem Numbered.covers_addGrant (h : Numbered s) :
    (s.addGrant request request.resourceKey now).Covers request := by
  have hfresh : s.grants.lookup (makeGrantId request.requestId (s.generation + 1)) = none := by
    refine Option.eq_none_iff_forall_ne_some.mpr fun g hg => ?_
    obtain ⟨requestId, n, hn, hid⟩ := h _ g hg
    have hnumber := makeId_injective hid
    omega
  refine ⟨makeGrantId request.requestId (s.generation + 1),
    { grant := makeGrant request now (s.generation + 1), request
      resourceKey := request.resourceKey }, ?_, rfl, ?_, fun _ hmode => hmode⟩
  · rw [addGrant, emplaceGrant]
    rw [show (makeGrant request now (s.generation + 1)).grantId =
      makeGrantId request.requestId (s.generation + 1) from rfl, hfresh]
    exact AList.lookup_insert _
  · simp [MGALockRequest.sameOwner, makeGrant]

theorem queueRequest_decision {key : String} {blockers : List String} :
    (s.queueRequest request key blockers now).1.decision ≠ .granted ∧
      (s.queueRequest request key blockers now).1.decision ≠ .alreadyOwned := by
  rw [queueRequest]
  dsimp only
  split
  · split
    · next hvictim =>
      rw [hvictim.1]
      decide
    split
    · next hcluster =>
      rw [hcluster]
      decide
    · constructor <;> intro h <;> cases h
  · constructor <;> intro h <;> cases h

/-- A request is granted as asked if the owner has nothing on the resource, and
nothing happens if it has something. -/
theorem acquire_answer (hanswer : (s.acquire request now).1.decision = .granted ∨
      (s.acquire request now).1.decision = .alreadyOwned) :
    (ownerHasGrantOnResource s.grants request request.resourceKey = true ∧
      (s.acquire request now).2 = s) ∨
    (ownerHasGrantOnResource s.grants request request.resourceKey = false ∧
      (s.acquire request now).2 = s.addGrant request request.resourceKey now) := by
  revert hanswer
  fun_cases acquire s request now with
  | case4 _ _ _ _ howned => exact fun _ => .inl ⟨howned, rfl⟩
  | case5 _ _ _ _ howned => exact fun _ => .inr ⟨Bool.eq_false_iff.mpr howned, rfl⟩
  | case8 => exact fun h => (h.elim queueRequest_decision.1 queueRequest_decision.2).elim
  | _ => rintro (h | h) <;> cases h

/-- After any run, an owner that is told that it has the resource holds a grant as
strong as it asked for exactly if it had nothing on the resource or such a grant. -/
theorem answered_covers_iff
    (hanswer : ((run operations).acquire request now).1.decision = .granted ∨
      ((run operations).acquire request now).1.decision = .alreadyOwned) :
    ((run operations).acquire request now).2.Covers request ↔
      ownerHasGrantOnResource (run operations).grants request request.resourceKey = false ∨
        (run operations).Covers request := by
  rcases acquire_answer hanswer with ⟨howned, hafter⟩ | ⟨hnone, hafter⟩
  · rw [hafter, howned]
    exact (or_iff_right Bool.noConfusion).symm
  · rw [hafter]
    exact iff_of_true (numbered_run operations).covers_addGrant (.inl hnone)

/-- A writer that waits for another relation asks to read the one it has. -/
theorem writer_covers_read :
    ((run (crossingWriters.take 3)).acquire (relationRequest 2 7 .sharedRead) 0).1.decision =
        .alreadyOwned ∧
      ((run (crossingWriters.take 3)).acquire (relationRequest 2 7 .sharedRead) 0).2.Covers
        (relationRequest 2 7 .sharedRead) := by
  have howned : ((run (crossingWriters.take 3)).acquire
      (relationRequest 2 7 .sharedRead) 0).1.decision = .alreadyOwned := by
    decide +kernel
  have hgrant : ∃ g ∈ Map.values (run (crossingWriters.take 3)).grants,
      g.resourceKey = (relationRequest 2 7 .sharedRead).resourceKey ∧
      (relationRequest 2 7 .sharedRead).sameOwner g.grant = true ∧
      g.grant.grantedMode = .exclusiveWrite := by
    decide +kernel
  refine ⟨howned, (answered_covers_iff (.inr howned)).mpr (.inr ?_)⟩
  obtain ⟨g, hg, hkey, howner, hmode⟩ := hgrant
  obtain ⟨id, hg⟩ := Map.mem_values.mp hg
  refine ⟨id, g, hg, hkey, howner, fun mode _ => ?_⟩
  rw [hmode]
  cases mode <;> rfl

/-- A reader that asks to write is told that it owns the resource, and holds
nothing that keeps other readers out. -/
theorem upgrade_not_covered :
    ((run [.acquire (relationRequest 1 7 .sharedRead) 0]).acquire
      (relationRequest 1 7 .exclusiveWrite) 0).1.decision = .alreadyOwned ∧
    ¬((run [.acquire (relationRequest 1 7 .sharedRead) 0]).acquire
      (relationRequest 1 7 .exclusiveWrite) 0).2.Covers (relationRequest 1 7 .exclusiveWrite) := by
  refine ⟨by decide +kernel, ?_⟩
  rintro ⟨id, g, hg, -, -, hmodes⟩
  have hshared : ∀ g ∈ Map.values ((run [.acquire (relationRequest 1 7 .sharedRead) 0]).acquire
      (relationRequest 1 7 .exclusiveWrite) 0).2.grants,
      mgaLockModesCompatible g.grant.grantedMode .sharedRead = true := by
    decide +kernel
  have hconflict := hmodes .sharedRead rfl
  rw [hshared g (Map.mem_values.mpr ⟨id, hg⟩)] at hconflict
  cases hconflict

/-! ## Deadlines -/

/-- The policy has no timeout. -/
def untimed (request : MGALockRequest) : Prop :=
  request.waitPolicy ≠ .waitTimeout ∧ request.waitPolicy ≠ .referenceCompatibleWait ∧
    request.waitPolicy ≠ .maintenanceWindowWait

/-- A wait was queued while its request had time left, and shows its deadline. -/
def Dated (w : WaitRecord) : Prop :=
  w.wait.deadlineMillis = w.request.deadlineMillis ∧ ∃ now, w.request.deadlineExpired now = false

theorem dated_run (operations : List LockWaitOperation) :
    ∀ id w, (run operations).waits.lookup id = some w → Dated w := by
  refine run_induction (p := fun s => ∀ id w, s.waits.lookup id = some w → Dated w) ?_ ?_ operations
  · intro id w hw
    cases hw
  · intro s s' hmove h
    exact forall_waits_move (fun _ _ _ now _ hopen => ⟨rfl, now, hopen⟩) (fun _ _ hw => hw) h hmove

/-- The two computations differ where the sum wraps and where there should be no
deadline at all. -/
theorem deadlines_agree_iff (hopen : ∃ now, request.deadlineExpired now = false)
    (hnow : now < 2 ^ 64) :
    (request.deadlineMillis ≠ 0 ∧ request.deadlineMillis ≤ now ↔
        request.deadlineExpired now = true) ↔
      ¬(request.deadlineMillis ≠ 0 ∧ request.deadlineMillis ≤ now ∧
        (untimed request ∨ 2 ^ 64 ≤ request.requestedAtMillis + request.timeoutMillis)) := by
  obtain ⟨earlier, hopen⟩ := hopen
  rw [MGALockRequest.deadlineExpired] at hopen ⊢
  split at hopen
  · cases hopen
  next hwait =>
  rw [if_neg hwait]
  split at hopen
  · next huntimed =>
    rw [if_pos huntimed]
    have huntimed : untimed request := huntimed
    simp [huntimed]
  next htimed =>
  rw [if_neg htimed]
  have htimed : ¬untimed request := htimed
  split at hopen
  · cases hopen
  next htimeout =>
  rw [if_neg htimeout, MGALockRequest.deadlineMillis, if_neg htimeout]
  simp only [htimed, false_or, decide_eq_true_eq]
  omega

/-- The wait is reported as timed out and is no longer queued. -/
def TimedOut (s : MGALockWaitLifecycle) (id : String) (w : WaitRecord) (now : Nat) : Prop :=
  timeoutResult w ∈ (s.processTimeouts now).1 ∧ (s.processTimeouts now).2.waits.lookup id = none

instance : Decidable (s.TimedOut id w now) := inferInstanceAs (Decidable (_ ∧ _))

theorem lookup_drained_none (h : s.waits.lookup id = none)
    (hsteps : ReflTransGen DrainStep s s') : s'.waits.lookup id = none := by
  induction hsteps with
  | refl => exact h
  | tail _ hstep ih =>
    cases hstep with
    | refresh hfound =>
      rw [Map.lookup_insert_if, if_neg]
      · exact ih
      · rintro rfl
        cases ih.symm.trans hfound
    | grant =>
      rw [removeWait, Map.lookup_erase_if]
      split
      · rfl
      · exact ih

theorem timedOut_iff (hs : Queued s) (hw : s.waits.lookup id = some w) :
    s.TimedOut id w now ↔ waitDeadlineExpired now w = true := by
  constructor
  · rintro ⟨hmem, -⟩
    obtain ⟨v, hv, hresult⟩ := List.mem_map.mp hmem
    have hwait : v.wait = w.wait := congrArg MGALockLifecycleResult.wait hresult
    rw [waitDeadlineExpired, ← hwait]
    exact (List.mem_filter.mp hv).2
  · intro hexpired
    refine ⟨List.mem_map.mpr ⟨w, List.mem_filter.mpr ⟨?_, hexpired⟩, rfl⟩, lookup_drained_none
      (Option.eq_none_iff_forall_ne_some.mpr fun v hv => ?_)
      (drainLoop_steps now _ (hs.dropWaits _))⟩
    · refine List.mem_filterMap.mpr ⟨id, (List.perm_insertionSort _ _).mem_iff.mpr ?_, hw⟩
      rw [← AList.mem_keys, ← AList.lookup_isSome, hw]
      rfl
    · obtain ⟨hv, hkept⟩ := Map.lookup_filter_iff.mp hv
      cases hw.symm.trans hv
      rw [hexpired] at hkept
      cases hkept

/-- A queued wait is timed out when its deadline has expired, except that a policy
without a timeout times out as well, and a sum that wraps comes too early. -/
theorem timed_out_iff_expired_iff (hw : (run operations).waits.lookup id = some w)
    (hnow : now < 2 ^ 64) :
    ((run operations).TimedOut id w now ↔ w.request.deadlineExpired now = true) ↔
      ¬(w.request.deadlineMillis ≠ 0 ∧ w.request.deadlineMillis ≤ now ∧
        (untimed w.request ∨ 2 ^ 64 ≤ w.request.requestedAtMillis + w.request.timeoutMillis)) := by
  obtain ⟨hdeadline, hopen⟩ := dated_run operations id w hw
  rw [timedOut_iff (queued_run operations) hw, ← deadlines_agree_iff hopen hnow,
    waitDeadlineExpired, hdeadline, Bool.and_eq_true, bne_iff_ne, decide_eq_true_eq]

/-- Owner 2 waits for relation 7, with a timeout of 5. -/
def waitingWriter (waitPolicy : MGAWaitPolicy) (requestedAtMillis : Nat) : List LockWaitOperation :=
  [.acquire (relationRequest 1 7 .exclusiveWrite) 0,
   .acquire { relationRequest 2 7 .exclusiveWrite with
     waitPolicy, requestedAtMillis, timeoutMillis := 5 } 0]

theorem timed_writer_waits : ∃ w, (run (waitingWriter .waitTimeout 0)).waits.lookup
      (makeWaitId (sampleUuid 2) 1) = some w ∧
    ((run (waitingWriter .waitTimeout 0)).TimedOut (makeWaitId (sampleUuid 2) 1) w 4 ↔
      w.request.deadlineExpired 4 = true) := by
  have hwait : ∃ w ∈ (run (waitingWriter .waitTimeout 0)).waits.lookup
      (makeWaitId (sampleUuid 2) 1), ¬w.request.deadlineMillis ≤ 4 := by
    decide +kernel
  obtain ⟨w, hw, hlate⟩ := hwait
  exact ⟨w, hw, (timed_out_iff_expired_iff hw (by decide)).mpr fun h => hlate h.2.1⟩

/-- A wait with deadlock detection is timed out, and so is one whose deadline wraps. -/
theorem writer_times_out :
    (∃ w ∈ (run (waitingWriter .waitWithDeadlockDetection 0)).waits.lookup
        (makeWaitId (sampleUuid 2) 1), w.request.deadlineExpired 5 = false ∧
      (run (waitingWriter .waitWithDeadlockDetection 0)).TimedOut
        (makeWaitId (sampleUuid 2) 1) w 5) ∧
    ∃ w ∈ (run (waitingWriter .waitTimeout (2 ^ 64 - 1))).waits.lookup
        (makeWaitId (sampleUuid 2) 1), w.request.deadlineExpired 4 = false ∧
      (run (waitingWriter .waitTimeout (2 ^ 64 - 1))).TimedOut
        (makeWaitId (sampleUuid 2) 1) w 4 := by
  decide +kernel

end MGALockWaitLifecycle

end ScratchBird.Mga
