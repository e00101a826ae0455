import ScratchBird.Proofs.WaitForGraph

/-!
# Deadlocks and what a wait remembers

The search is complete on the graph it is given, so a deadlock goes unnoticed only
where a wait does not remember a grant that blocks it. `Recorded` says that it
remembers them all. A request that queues records them all, but later grants are
another matter:

* A request that is granted at once may be granted past waits it conflicts with,
  and no wait is told.
* A drain that grants the first wait of a resource writes the list of the next one
  anew, and not those of the waits behind it.

The first is excluded by the condition on requests that are granted. The second is
excluded if a wait conflicts with none of those before it except the last; that is
what `Tidy` says of the queue, and it is a condition on requests that queue.

What a found deadlock leaves is the third matter. The victim gives up its oldest
wait, so owners are asked to have one. And a request that is blocked by several
owners may close several cycles, of which the search breaks one. All of them pass
the owner of the request, so nothing is left exactly when the victim stands on
every way from a blocker back to that owner (`VictimCuts`).
-/

namespace ScratchBird.Mga

open Lib Relation

variable {s s' : MGALockWaitLifecycle} {request left right : MGALockRequest}
  {key waitId i j : String} {now generation fuel : Nat} {done : List LockWaitOperation}
  {a b id : String} {w : WaitRecord}

namespace MGALockWaitLifecycle

/-! ## The true graph -/

/-- A wait of the first owner is kept out by a grant of the second. As in the
search, an owner is its UUID. -/
def WaitsFor (s : MGALockWaitLifecycle) (a b : String) : Prop :=
  b ≠ a ∧ ∃ id w, s.waits.lookup id = some w ∧ w.request.ownerUuid = a ∧
    ∃ grantId g, s.grants.lookup grantId = some g ∧
      g.resourceKey = w.resourceKey ∧ g.grant.ownerUuid = b ∧
      mgaLockModesCompatible w.request.mode g.grant.grantedMode = false

/-- Two owners whose modes exclude each other. -/
def Conflicts (left right : MGALockRequest) : Prop :=
  ¬(left.ownerUuid = right.ownerUuid ∧ left.ownerKind = right.ownerKind) ∧
    mgaLockModesCompatible left.mode right.mode = false

theorem Conflicts.symm (h : Conflicts left right) : Conflicts right left := by
  refine ⟨fun hsame => h.1 ⟨hsame.1.symm, hsame.2.symm⟩, ?_⟩
  rw [mgaLockModesCompatible_comm]
  exact h.2

instance (left right : MGALockRequest) : Decidable (Conflicts left right) :=
  inferInstanceAs (Decidable (_ ∧ _))

/-- The owners that waits of this one are kept out by. -/
def blockingOwners (s : MGALockWaitLifecycle) (a : String) : List String :=
  ((Map.values s.waits).filter (·.request.ownerUuid == a)).flatMap fun w =>
    ((Map.values s.grants).filter fun g =>
      g.resourceKey == w.resourceKey && g.grant.ownerUuid != a &&
        !mgaLockModesCompatible w.request.mode g.grant.grantedMode).map
      (·.grant.ownerUuid)

theorem mem_blockingOwners : b ∈ s.blockingOwners a ↔ s.WaitsFor a b := by
  simp only [blockingOwners, List.mem_flatMap, List.mem_filter, List.mem_map,
    Map.mem_values, beq_iff_eq, bne_iff_ne, Bool.and_eq_true, Bool.not_eq_true']
  constructor
  · rintro ⟨w, ⟨⟨id, hw⟩, howner⟩, g, ⟨⟨grantId, hg⟩, ⟨hkey, hne⟩, hmode⟩, rfl⟩
    exact ⟨hne, id, w, hw, howner, grantId, g, hg, hkey, rfl, hmode⟩
  · rintro ⟨hne, id, w, hw, howner, grantId, g, hg, hkey, rfl, hmode⟩
    exact ⟨w, ⟨⟨id, hw⟩, howner⟩, g, ⟨⟨grantId, hg⟩, ⟨hkey, hne⟩, hmode⟩, rfl⟩

instance (a b : String) : Decidable (s.WaitsFor a b) := decidable_of_iff _ mem_blockingOwners

theorem not_acyclic_of_pair (h : s.WaitsFor a b ∧ s.WaitsFor b a) :
    ¬Acyclic s.WaitsFor := fun hacyclic => hacyclic a (.tail (.single h.1) h.2)

/-- Every grant that keeps the wait out is on its list. -/
def Recorded (grants : Map String GrantRecord) (w : WaitRecord) : Prop :=
  ∀ id g, grants.lookup id = some g → blocksRequest w.request w.resourceKey g = true →
      id ∈ w.wait.blockedByGrantIds

/-! ## Names -/

/-- A wait shows what was asked. -/
def Shown (w : WaitRecord) : Prop :=
  w.wait.ownerUuid = w.request.ownerUuid ∧ w.wait.distributedWait = w.request.distributedWait

/-- Grants are listed under their identifiers, and waits show their requests. -/
structure Labelled (s : MGALockWaitLifecycle) : Prop where
  grantId : ∀ id g, s.grants.lookup id = some g → g.grant.grantId = id
  shown : ∀ id w, s.waits.lookup id = some w → Shown w

theorem Labelled.move (h : Labelled s) (hmove : Move s s') : Labelled s' := by
  refine ⟨?_, forall_waits_move (fun _ _ _ _ _ _ => ⟨rfl, rfl⟩) (fun _ _ hw => hw) h.shown hmove⟩
  intro id g hg
  cases hmove with
  | grant =>
    rcases lookup_addGrant hg with hold | ⟨rfl, rfl⟩
    · exact h.grantId id g hold
    · rfl
  | dropGrants hsub => exact h.grantId id g (hsub id g hg)
  | shutdown => cases hg
  | enqueue | removeWait | dropWaits | refresh => exact h.grantId id g hg

theorem Labelled.moves (h : Labelled s) (hmoves : Moves s s') : Labelled s' := by
  induction hmoves with
  | refl => exact h
  | tail _ hlast ih => exact ih.move hlast

theorem labelled_run (operations : List LockWaitOperation) : Labelled (run operations) := by
  refine run_induction ?_ (fun _ _ hmove h => h.move hmove) operations
  refine ⟨fun id g hg => ?_, fun id w hw => ?_⟩
  · cases hg
  · cases hw

/-! ## Fewer waits -/

/-- Every wait was there before, apart from what it remembers. -/
def Shrinks (s s' : MGALockWaitLifecycle) : Prop :=
  ∀ id w', s'.waits.lookup id = some w' → ∃ w, s.waits.lookup id = some w ∧ SameWait w w'

theorem shrinks_of_sub (h : ∀ id w, s'.waits.lookup id = some w → s.waits.lookup id = some w) :
    Shrinks s s' := fun id w hw => ⟨w, h id w hw, rfl, rfl, rfl, rfl⟩

theorem waitsFor_of_shrinks (hwaits : Shrinks s s')
    (hgrants : ∀ id g, s'.grants.lookup id = some g → s.grants.lookup id = some g)
    (h : s'.WaitsFor a b) : s.WaitsFor a b := by
  obtain ⟨hne, id, w', hw', howner, grantId, g, hg, hkey, hb, hmode⟩ := h
  obtain ⟨w, hw, hsame⟩ := hwaits id w' hw'
  refine ⟨hne, id, w, hw, ?_, grantId, g, hgrants _ _ hg, ?_, hb, ?_⟩
  · rw [hsame.request]
    exact howner
  · rw [hsame.resourceKey]
    exact hkey
  · rw [hsame.request]
    exact hmode

/-- One wait an owner, and on one resource a wait conflicts with none of those
before it, except the last. -/
structure Tidy (s : MGALockWaitLifecycle) : Prop where
  isLocal : ∀ id w, s.waits.lookup id = some w → w.request.distributedWait = false
  single : ∀ i j v w, s.waits.lookup i = some v → s.waits.lookup j = some w →
    v.request.ownerUuid = w.request.ownerUuid → i = j
  spaced : ∀ i j k u v w, s.waits.lookup i = some u → s.waits.lookup j = some v →
    s.waits.lookup k = some w → u.resourceKey = w.resourceKey →
    v.resourceKey = w.resourceKey → u.queueSequence < v.queueSequence →
    v.queueSequence < w.queueSequence → ¬Conflicts u.request w.request

theorem Tidy.shrink (h : Tidy s) (hsub : Shrinks s s') : Tidy s' := by
  refine ⟨?_, ?_, ?_⟩
  · intro id w' hw'
    obtain ⟨w, hw, hsame⟩ := hsub id w' hw'
    rw [← hsame.request]
    exact h.isLocal id w hw
  · intro i j v' w' hv' hw' howner
    obtain ⟨v, hv, hvsame⟩ := hsub i v' hv'
    obtain ⟨w, hw, hwsame⟩ := hsub j w' hw'
    rw [← hvsame.request, ← hwsame.request] at howner
    exact h.single i j v w hv hw howner
  · intro i j k u' v' w' hu' hv' hw' hukey hvkey huv hvw
    obtain ⟨u, hu, husame⟩ := hsub i u' hu'
    obtain ⟨v, hv, hvsame⟩ := hsub j v' hv'
    obtain ⟨w, hw, hwsame⟩ := hsub k w' hw'
    rw [← husame.resourceKey, ← hwsame.resourceKey] at hukey
    rw [← hvsame.resourceKey, ← hwsame.resourceKey] at hvkey
    rw [← husame.queueSequence, ← hvsame.queueSequence] at huv
    rw [← hvsame.queueSequence, ← hwsame.queueSequence] at hvw
    rw [← husame.request, ← hwsame.request]
    exact h.spaced i j k u v w hu hv hw hukey hvkey huv hvw

/-! ## Drains -/

inductive DrainStep (s : MGALockWaitLifecycle) : MGALockWaitLifecycle → Prop where
  | refresh {waitId : String} {w : WaitRecord} (hfound : s.waits.lookup waitId = some w) :
      DrainStep s { s with
        waits := s.waits.insert waitId { w with
          wait := { w.wait with
            blockedByGrantIds := blockingGrants s.grants w.request w.resourceKey } } }
  | grant {waitId : String} {w : WaitRecord} {now : Nat}
      (hfound : s.waits.lookup waitId = some w) (hfirst : s.First w)
      (hfree : blockingGrants s.grants w.request w.resourceKey = []) :
      DrainStep s ((s.addGrant w.request w.resourceKey now).removeWait waitId)

theorem drainScan_steps (now : Nat) (queue : List String) (hs : Queued s) :
    ReflTransGen DrainStep s (drainScan now queue s).1 := by
  induction queue generalizing s with
  | nil => exact .refl
  | cons waitId rest ih =>
    rw [drainScan]
    split
    · exact ih hs
    next w hfound =>
    split
    · exact ih hs
    next hfirst =>
    have hfirst : s.First w := (first_iff hs hfound).mpr (by simpa using hfirst)
    dsimp only
    split
    · next hfree => exact .single (.grant hfound hfirst (List.isEmpty_iff.mp hfree))
    · exact .head (.refresh hfound) (ih (hs.refresh hfound))

theorem drainLoop_steps (now fuel : Nat) (hs : Queued s) :
    ReflTransGen DrainStep s (drainLoop now fuel s) := by
  induction fuel generalizing s with
  | zero => exact .refl
  | succ fuel ih =>
    rw [drainLoop]
    have hscan := drainScan_steps now s.waitOrder hs
    have hmoves := moves_drainScan now s.waitOrder s
    split
    · next hbusy =>
      rw [hbusy] at hscan hmoves
      exact hscan.trans (ih (hs.moves hmoves))
    · next hidle =>
      rw [hidle] at hscan
      exact hscan

/-- Two waits have different numbers. -/
theorem Queued.sequence_injective (h : Queued s) {v : WaitRecord}
    (hv : s.waits.lookup i = some v) (hw : s.waits.lookup j = some w)
    (hsequence : v.queueSequence = w.queueSequence) : i = j := by
  by_contra hne
  let differ (i j : String) : Prop := ∀ v w, s.waits.lookup i = some v →
    s.waits.lookup j = some w → v.queueSequence ≠ w.queueSequence
  have hsymm : Std.Symm differ := ⟨fun i j hij v w hv hw => (hij w v hw hv).symm⟩
  have hdiffer : s.waitOrder.Pairwise differ :=
    h.ordered.imp fun hbefore v w hv hw => Nat.ne_of_lt (hbefore v w hv hw)
  have hi : i ∈ s.waitOrder := (h.listed i).mpr (by rw [hv]; rfl)
  have hj : j ∈ s.waitOrder := (h.listed j).mpr (by rw [hw]; rfl)
  exact hdiffer.forall hi hj hne v w hv hw hsequence

/-- What a drain keeps: the waits that are not first remember their blockers. -/
structure Draining (s : MGALockWaitLifecycle) : Prop where
  queued : Queued s
  labelled : Labelled s
  tidy : Tidy s
  acyclic : Acyclic s.WaitsFor
  recorded : ∀ id w, s.waits.lookup id = some w → ¬s.First w → Recorded s.grants w

theorem recorded_blockingGrants (hs : Labelled s) (hlist : w.wait.blockedByGrantIds =
      blockingGrants s.grants w.request w.resourceKey) : Recorded s.grants w := by
  intro id g hg hblocks
  rw [hlist, (blockingGrants_perm _ _ _).mem_iff, ← hs.grantId id g hg]
  exact List.mem_map_of_mem (List.mem_filter.mpr ⟨Map.mem_values.mpr ⟨id, hg⟩, hblocks⟩)

/-- A grant made for a request keeps out a wait only if the two conflict. -/
theorem conflicts_of_blocks (h : blocksRequest w.request w.resourceKey
      { grant := makeGrant request now generation, request, resourceKey := key } = true) :
    key = w.resourceKey ∧ Conflicts w.request request := by
  obtain ⟨hkey, hother, hmode⟩ := blocksRequest_iff.mp h
  exact ⟨hkey, hother, hmode⟩

section

variable (h : Draining s)
include h

theorem Draining.refresh (hfound : s.waits.lookup waitId = some w) : Draining { s with
      waits := s.waits.insert waitId { w with
        wait := { w.wait with
          blockedByGrantIds := blockingGrants s.grants w.request w.resourceKey } } } := by
  have hsame := sameQueue_refresh (blockingGrants s.grants w.request w.resourceKey) hfound
  refine ⟨h.queued.refresh hfound, h.labelled.move (.refresh hfound),
    h.tidy.shrink hsame.backward, ?_, ?_⟩
  · exact h.acyclic.mono fun a b => waitsFor_of_shrinks hsame.backward fun _ _ hg => hg
  · intro id v hv hnot
    obtain ⟨u, hu, huv⟩ := hsame.backward id v hv
    have hrecorded : ¬s.First u := fun hfirst => hnot (hsame.first huv hfirst)
    rw [Map.lookup_insert_if] at hv
    split at hv
    · rw [← Option.some.inj hv]
      exact recorded_blockingGrants (s := s) h.labelled rfl
    · rw [hv] at hu
      rw [Option.some.inj hu]
      exact h.recorded id u (by rw [hv, hu]) hrecorded

theorem Draining.grant (hfound : s.waits.lookup waitId = some w)
    (hfirst : s.First w) (hfree : blockingGrants s.grants w.request w.resourceKey = []) :
    Draining ((s.addGrant w.request w.resourceKey now).removeWait waitId) := by
  have hlookup : ∀ {id v},
      ((s.addGrant w.request w.resourceKey now).removeWait waitId).waits.lookup id =
        some v → id ≠ waitId ∧ s.waits.lookup id = some v := fun hv => lookup_removeWait_iff.mp hv
  have hmoves : Moves s ((s.addGrant w.request w.resourceKey now).removeWait waitId) :=
    .tail (.single (.grant hfree)) (.removeWait waitId)
  refine ⟨h.queued.moves hmoves, h.labelled.moves hmoves,
    h.tidy.shrink (shrinks_of_sub fun id v hv => (hlookup hv).2), ?_, ?_⟩
  · -- the new edges lead to an owner that waits no more
    refine acyclic_of_in (x := w.request.ownerUuid) h.acyclic ?_ ?_
    · rintro a b ⟨hne, id, v, hv, howner, grantId, g, hg, hkey, hb, hmode⟩
      rcases lookup_addGrant hg with hg | ⟨-, rfl⟩
      · exact .inl ⟨hne, id, v, (hlookup hv).2, howner, grantId, g, hg, hkey, hb, hmode⟩
      · exact .inr hb.symm
    · rintro b ⟨-, id, v, hv, howner, -⟩
      obtain ⟨hne, hv⟩ := hlookup hv
      exact hne (h.tidy.single id waitId v w hv hfound howner)
  · intro id v hv hnot
    obtain ⟨hne, hold⟩ := hlookup hv
    rw [First, not_forall] at hnot
    obtain ⟨j, hnot⟩ := hnot
    simp only [not_forall, Nat.not_le] at hnot
    obtain ⟨u, hu, hkey, hlt⟩ := hnot
    obtain ⟨hj, hu⟩ := hlookup hu
    intro grantId g hg hblocks
    rcases lookup_addGrant hg with hg | ⟨-, rfl⟩
    · refine h.recorded id v hold (fun hall => ?_) grantId g hg hblocks
      exact absurd (hall j u hu hkey) (by omega)
    · -- a wait stands between the granted one and this one
      obtain ⟨hwkey, hconflict⟩ := conflicts_of_blocks hblocks
      have hle := hfirst j u hu (hkey.trans hwkey.symm)
      have hdiffer : w.queueSequence ≠ u.queueSequence := fun heq =>
        hj (h.queued.sequence_injective hfound hu heq).symm
      exact absurd hconflict.symm (h.tidy.spaced waitId j id w u v hfound hu hold
        hwkey hkey (by omega) hlt)

theorem Draining.steps (hsteps : ReflTransGen DrainStep s s') : Draining s' := by
  induction hsteps with
  | refl => exact h
  | tail _ hstep ih =>
    cases hstep with
    | refresh hfound => exact ih.refresh hfound
    | grant hfound hfirst hfree => exact ih.grant hfound hfirst hfree

theorem drainLoop_recorded (hfuel : Map.size s.waits < fuel) :
    ∀ id w, (drainLoop now fuel s).waits.lookup id = some w →
      Recorded (drainLoop now fuel s).grants w := by
  induction fuel generalizing s with
  | zero => exact absurd hfuel (Nat.not_lt_zero _)
  | succ fuel ih =>
    rw [drainLoop]
    have hsteps := drainScan_steps now s.waitOrder h.queued
    split
    · next hbusy =>
      have hsize := drainScan_busy hbusy
      rw [hbusy] at hsteps
      exact ih (h.steps hsteps) (by omega)
    · next after hidle =>
      rw [hidle] at hsteps
      have hend := h.steps hsteps
      intro id w hw
      by_cases hfirst : after.First w
      · exact recorded_blockingGrants hend.labelled (refreshed_of_idle h.queued hidle hw hfirst).1
      · exact hend.recorded id w hw hfirst

end

/-! ## Calls -/

/-- Every wait remembers all that blocks it. -/
structure Tracked (s : MGALockWaitLifecycle) : Prop where
  queued : Queued s
  labelled : Labelled s
  tidy : Tidy s
  recorded : ∀ id w, s.waits.lookup id = some w → Recorded s.grants w

/-- Waits and grants that go away leave the rest as it was, and close no cycle. -/
theorem Tracked.less (h : Tracked s) (hmoves : Moves s s')
    (hwaits : ∀ id w, s'.waits.lookup id = some w → s.waits.lookup id = some w)
    (hgrants : ∀ id g, s'.grants.lookup id = some g → s.grants.lookup id = some g) :
    Tracked s' ∧ (Acyclic s.WaitsFor → Acyclic s'.WaitsFor) := by
  have hshrinks := shrinks_of_sub hwaits
  refine ⟨⟨h.queued.moves hmoves, h.labelled.moves hmoves, h.tidy.shrink hshrinks, ?_⟩, ?_⟩
  · intro id w hw grantId g hg
    exact h.recorded id w (hwaits id w hw) grantId g (hgrants grantId g hg)
  · exact fun hacyclic => hacyclic.mono fun _ _ => waitsFor_of_shrinks hshrinks hgrants

theorem Tracked.removeWait (h : Tracked s) (waitId : String) :
    Tracked (s.removeWait waitId) ∧ (Acyclic s.WaitsFor → Acyclic (s.removeWait waitId).WaitsFor) :=
  h.less (.single (.removeWait waitId))
    (fun _ _ hw => (lookup_removeWait_iff.mp hw).2) fun _ _ hg => hg

theorem Tracked.detect (h : Tracked s) :
    Tracked s.detectAndResolveDeadlock.2 ∧
      (Acyclic s.WaitsFor → Acyclic s.detectAndResolveDeadlock.2.WaitsFor) := by
  rcases detect_cases s with ⟨_, -, hafter⟩ | ⟨-, hafter⟩
  · rw [hafter]
    exact h.removeWait _
  · rw [hafter]
    exact ⟨h, id⟩

section

variable (h : Tracked s) (hacyclic : Acyclic s.WaitsFor)
include h hacyclic

theorem Tracked.drain (now : Nat) :
    Tracked (s.drainGrantableWaits now) ∧ Acyclic (s.drainGrantableWaits now).WaitsFor := by
  have hstart : Draining s := ⟨h.queued, h.labelled, h.tidy, hacyclic,
    fun id w hw _ => h.recorded id w hw⟩
  have hend : Draining (s.drainGrantableWaits now) := hstart.steps (drainLoop_steps now _ h.queued)
  exact ⟨⟨hend.queued, hend.labelled, hend.tidy,
    drainLoop_recorded hstart (Nat.lt_succ_self _)⟩, hend.acyclic⟩

theorem Tracked.releaseOwner (ownerUuid : String) (now : Nat) :
    Tracked (s.releaseOwner ownerUuid now).2 ∧
      Acyclic (s.releaseOwner ownerUuid now).2.WaitsFor := by
  have hgrants : ∀ id g, (Map.filter (fun record : GrantRecord =>
      !(record.grant.ownerUuid == ownerUuid)) s.grants).lookup id = some g →
        s.grants.lookup id = some g :=
    fun id g hg => (Map.lookup_filter_iff.mp hg).1
  have hwaits : ∀ id w, (Map.filter (fun record : WaitRecord =>
      !(record.wait.ownerUuid == ownerUuid)) s.waits).lookup id = some w →
        s.waits.lookup id = some w :=
    fun id w hw => (Map.lookup_filter_iff.mp hw).1
  have hless := h.less (.tail (.single (.dropGrants hgrants)) (.dropWaits _)) hwaits hgrants
  exact hless.1.drain (hless.2 hacyclic) now

/-- No other call closes a cycle or makes a wait forget. -/
theorem Tracked.apply_other
    {operation : LockWaitOperation} (hother : ∀ request now, operation ≠ .acquire request now) :
    Tracked (s.apply operation) ∧ Acyclic (s.apply operation).WaitsFor := by
  cases operation with
  | acquire request now => exact absurd rfl (hother request now)
  | releaseGrant grantId now =>
    rw [apply, MGALockWaitLifecycle.releaseGrant]
    split
    · exact ⟨h, hacyclic⟩
    have hgrants : ∀ id g, (s.grants.erase grantId).lookup id = some g →
        s.grants.lookup id = some g := fun id g hg => (Map.lookup_erase_iff.mp hg).2
    have hless := h.less (.single (.dropGrants hgrants)) (fun _ _ hw => hw) hgrants
    exact hless.1.drain (hless.2 hacyclic) now
  | releaseOwner ownerUuid now => exact h.releaseOwner hacyclic ownerUuid now
  | cancelWait waitId =>
    rw [apply, MGALockWaitLifecycle.cancelWait]
    split
    · exact ⟨h, hacyclic⟩
    · exact (h.removeWait waitId).imp_right fun hkeeps => hkeeps hacyclic
  | disconnectOwner ownerUuid now => exact h.releaseOwner hacyclic ownerUuid now
  | processTimeouts now =>
    have hwaits : ∀ id w, (s.dropWaits (waitDeadlineExpired now)).waits.lookup id =
        some w → s.waits.lookup id = some w := fun id w hw => (Map.lookup_filter_iff.mp hw).1
    have hless := h.less (.single (.dropWaits _)) hwaits fun _ _ hg => hg
    exact hless.1.drain (hless.2 hacyclic) now
  | detectAndResolveDeadlock => exact h.detect.imp_right fun hkeeps => hkeeps hacyclic
  | shutdown =>
    have hwaits : ∀ id w, s.shutdown.2.waits.lookup id = some w →
        s.waits.lookup id = some w := fun id w hw =>
      absurd hw (by simp [MGALockWaitLifecycle.shutdown])
    have hgrants : ∀ id g, s.shutdown.2.grants.lookup id = some g →
        s.grants.lookup id = some g := fun id g hg =>
      absurd hg (by simp [MGALockWaitLifecycle.shutdown])
    exact (h.less (.single .shutdown) hwaits hgrants).imp_right fun hkeeps => hkeeps hacyclic

end

/-! ## Requests -/

/-- The request is granted at once past no wait it conflicts with. If it queues,
its owner has no other wait, and of the waits for the resource it conflicts at
most with the last. -/
def Orderly (s : MGALockWaitLifecycle) (request : MGALockRequest) : Prop :=
  (blockingGrants s.grants request request.resourceKey = [] →
    ∀ w ∈ Map.values s.waits, w.resourceKey = request.resourceKey → ¬Conflicts w.request request) ∧
  (blockingGrants s.grants request request.resourceKey ≠ [] →
    (∀ w ∈ Map.values s.waits, w.request.ownerUuid ≠ request.ownerUuid) ∧
    ∀ u ∈ Map.values s.waits, ∀ v ∈ Map.values s.waits,
      u.resourceKey = request.resourceKey → v.resourceKey = request.resourceKey →
      u.queueSequence < v.queueSequence → ¬Conflicts u.request request)

instance (request : MGALockRequest) : Decidable (s.Orderly request) :=
  inferInstanceAs (Decidable (_ ∧ _))

/-- A search that picks another owner picks one that stands on every way from a
blocker of the request back to its owner. -/
def VictimCuts (s : MGALockWaitLifecycle) (request : MGALockRequest) (now : Nat) :
    Prop :=
  s.Queues request now → ∀ victim, (s.queuedBy request now).victimWait = some victim →
    victim.request.ownerUuid ≠ request.ownerUuid →
      ∀ b, (s.queuedBy request now).WaitsFor request.ownerUuid b →
        ¬ReflTransGen (fun x y => x ≠ victim.request.ownerUuid ∧ s.WaitsFor x y)
          b request.ownerUuid

theorem Tracked.addGrant (h : Tracked s)
    (hfree : blockingGrants s.grants request request.resourceKey = [])
    (hpast : ∀ w ∈ Map.values s.waits, w.resourceKey = request.resourceKey →
      ¬Conflicts w.request request) : Tracked (s.addGrant request request.resourceKey now) := by
  have hmoves : Moves s (s.addGrant request request.resourceKey now) := .single (.grant hfree)
  refine ⟨h.queued.moves hmoves, h.labelled.moves hmoves,
    h.tidy.shrink (shrinks_of_sub fun _ _ hw => hw), ?_⟩
  intro id w hw grantId g hg hblocks
  rcases lookup_addGrant hg with hg | ⟨-, rfl⟩
  · exact h.recorded id w hw grantId g hg hblocks
  · obtain ⟨hkey, hconflict⟩ := conflicts_of_blocks hblocks
    exact absurd hconflict (hpast w (Map.mem_values.mpr ⟨id, hw⟩) hkey.symm)

theorem acyclic_addGrant (h : Acyclic s.WaitsFor)
    (hpast : ∀ w ∈ Map.values s.waits, w.resourceKey = request.resourceKey →
      ¬Conflicts w.request request) :
    Acyclic (s.addGrant request request.resourceKey now).WaitsFor := by
  refine h.mono ?_
  rintro a b ⟨hne, id, w, hw, rfl, grantId, g, hg, hkey, rfl, hmode⟩
  rcases lookup_addGrant hg with hg | ⟨-, rfl⟩
  · exact ⟨hne, id, w, hw, rfl, grantId, g, hg, hkey, rfl, hmode⟩
  · exact absurd ⟨fun hsame => hne hsame.1.symm, hmode⟩
      (hpast w (Map.mem_values.mpr ⟨id, hw⟩) hkey.symm)

theorem lookup_queuedBy (h : (s.queuedBy request now).waits.lookup id = some w) :
    (id = makeWaitId request.requestId (s.waitSequence + 1) ∧
      w.request = request ∧ w.resourceKey = request.resourceKey ∧
      w.queueSequence = s.waitSequence + 1 ∧ w.wait.blockedByGrantIds =
        blockingGrants s.grants request request.resourceKey) ∨ s.waits.lookup id = some w := by
  rw [queuedBy, lookup_enqueue] at h
  split at h
  · next hid =>
    rw [← Option.some.inj h]
    exact .inl ⟨hid, rfl, rfl, rfl, rfl⟩
  · exact .inr h

theorem Tracked.queuedBy (h : Tracked s) (hvalid : request.validateRequestShape = none)
    (hblocked : blockingGrants s.grants request request.resourceKey ≠ [])
    (hopen : request.deadlineExpired now = false) (hlocal : request.distributedWait = false)
    (horderly : s.Orderly request) : Tracked (s.queuedBy request now) := by
  have hmoves : Moves s (s.queuedBy request now) := .single (.enqueue hvalid hblocked hopen)
  obtain ⟨hsingle, hspaced⟩ := horderly.2 hblocked
  have hmem : ∀ {id w}, s.waits.lookup id = some w → w ∈ Map.values s.waits :=
    fun hw => Map.mem_values.mpr ⟨_, hw⟩
  refine ⟨h.queued.moves hmoves, h.labelled.moves hmoves, ⟨?_, ?_, ?_⟩, ?_⟩
  · intro id w hw
    rcases lookup_queuedBy hw with ⟨-, hrequest, -⟩ | hw
    · rw [hrequest]
      exact hlocal
    · exact h.tidy.isLocal id w hw
  · intro i j v w hv hw howner
    rcases lookup_queuedBy hv with ⟨hi, hvrequest, -⟩ | hv
    · rcases lookup_queuedBy hw with ⟨hj, -⟩ | hw
      · rw [hi, hj]
      · rw [hvrequest] at howner
        exact absurd howner.symm (hsingle w (hmem hw))
    · rcases lookup_queuedBy hw with ⟨-, hwrequest, -⟩ | hw
      · rw [hwrequest] at howner
        exact absurd howner (hsingle v (hmem hv))
      · exact h.tidy.single i j v w hv hw howner
  · intro i j k u v w hu hv hw hukey hvkey huv hvw
    have hold : ∀ {id x}, (s.queuedBy request now).waits.lookup id = some x →
        x.queueSequence < s.waitSequence + 1 → s.waits.lookup id = some x := by
      intro id x hx hlt
      rcases lookup_queuedBy hx with ⟨-, -, -, hsequence, -⟩ | hx
      · omega
      · exact hx
    rcases lookup_queuedBy hw with ⟨-, hrequest, hkey, hsequence, -⟩ | hw
    · rw [hkey] at hukey hvkey
      rw [hrequest]
      exact hspaced u (hmem (hold hu (by omega))) v (hmem (hold hv (by omega))) hukey hvkey huv
    · have hcounted := h.queued.counted k w hw
      exact h.tidy.spaced i j k u v w (hold hu (by omega)) (hold hv (by omega)) hw
        hukey hvkey huv hvw
  · intro id w hw
    rcases lookup_queuedBy hw with ⟨-, hrequest, hkey, -, hlist⟩ | hw
    · refine recorded_blockingGrants (s := s) h.labelled ?_
      rw [hlist, hrequest, hkey]
    · exact h.recorded id w hw

/-- Where all is recorded, the search sees every edge. -/
theorem Tracked.mem_waitForEdges (h : Tracked s) (hedge : s.WaitsFor a b) :
    b ∈ waitForEdges s.grants s.waits a := by
  obtain ⟨hne, id, w, hw, rfl, grantId, g, hg, hkey, rfl, hmode⟩ := hedge
  rw [Mga.mem_waitForEdges]
  refine ⟨hne, id, w, hw, (h.labelled.shown id w hw).1, grantId, ?_, g, hg, rfl⟩
  exact h.recorded id w hw grantId g hg
    (blocksRequest_iff.mpr ⟨hkey, fun hsame => hne hsame.1.symm, hmode⟩)

theorem waitsFor_queuedBy_iff (h : Tracked s) (hne : a ≠ request.ownerUuid) :
    (s.queuedBy request now).WaitsFor a b ↔ s.WaitsFor a b := by
  constructor
  · rintro ⟨hab, id, w, hw, rfl, hgrant⟩
    rcases lookup_queuedBy hw with ⟨-, hrequest, -⟩ | hw
    · rw [hrequest] at hne
      exact absurd rfl hne
    · exact ⟨hab, id, w, hw, rfl, hgrant⟩
  · rintro ⟨hab, id, w, hw, rfl, hgrant⟩
    refine ⟨hab, id, w, ?_, rfl, hgrant⟩
    rw [queuedBy, lookup_enqueue, if_neg]
    · exact hw
    · rintro rfl
      rw [h.queued.fresh] at hw
      cases hw

/-- The wait of an owner that has no other goes with all its edges. -/
theorem waitsFor_removeWait_iff (h : Tidy s) (hw : s.waits.lookup waitId = some w) :
    (s.removeWait waitId).WaitsFor a b ↔ a ≠ w.request.ownerUuid ∧ s.WaitsFor a b := by
  constructor
  · rintro ⟨hab, id, v, hv, rfl, hgrant⟩
    obtain ⟨hne, hv⟩ := lookup_removeWait_iff.mp hv
    refine ⟨fun howner => hne ?_, hab, id, v, hv, rfl, hgrant⟩
    exact h.single id waitId v w hv hw howner
  · rintro ⟨howner, hab, id, v, hv, rfl, hgrant⟩
    refine ⟨hab, id, v, lookup_removeWait_iff.mpr ⟨?_, hv⟩, rfl, hgrant⟩
    rintro rfl
    rw [hw] at hv
    rw [Option.some.inj hv] at howner
    exact howner rfl

theorem acyclic_resolved_iff {t : MGALockWaitLifecycle} (ht : t = s.queuedBy request now)
    (h : Tracked s) (hacyclic : Acyclic s.WaitsFor) (hqueues : s.Queues request now)
    (hlocal : request.distributedWait = false) (horderly : s.Orderly request) :
    Acyclic t.detectAndResolveDeadlock.2.WaitsFor ↔
      ∀ victim, t.victimWait = some victim → victim.request.ownerUuid ≠ request.ownerUuid →
        ∀ b, t.WaitsFor request.ownerUuid b →
          ¬ReflTransGen (fun x y => x ≠ victim.request.ownerUuid ∧ s.WaitsFor x y)
            b request.ownerUuid := by
  have hqueued : Tracked t :=
    ht ▸ h.queuedBy hqueues.shape hqueues.blocked hqueues.inTime hlocal horderly
  have hothers : ∀ {a b}, a ≠ request.ownerUuid → (t.WaitsFor a b ↔ s.WaitsFor a b) :=
    fun hne => ht ▸ waitsFor_queuedBy_iff h hne
  have hlocals : ∀ id w, t.waits.lookup id = some w → w.wait.distributedWait = false :=
    fun id w hw => (hqueued.labelled.shown id w hw).2.trans (hqueued.tidy.isLocal id w hw)
  rcases detect_cases t with ⟨w, hvictim, hafter⟩ | ⟨hnone, hafter⟩
  case inr =>
    rw [hafter, hnone]
    refine iff_of_true ?_ fun _ hvictim => absurd hvictim (by simp)
    exact (findFirstCycle_nil (victimWait_none hlocals hnone)).mono
      fun _ _ => hqueued.mem_waitForEdges
  obtain ⟨id, hw⟩ := victimWait_some hvictim
  rw [hafter, hvictim, hqueued.queued.waitId id w hw]
  simp only [Option.some.injEq, forall_eq']
  have hedge : ∀ {a b}, (t.removeWait id).WaitsFor a b ↔
      a ≠ w.request.ownerUuid ∧ t.WaitsFor a b := waitsFor_removeWait_iff hqueued.tidy hw
  by_cases hself : w.request.ownerUuid = request.ownerUuid
  · -- all that the request closed goes with its own wait
    refine iff_of_true (hacyclic.mono fun a b hab => ?_) fun hne => absurd hself hne
    obtain ⟨hne, hab⟩ := hedge.mp hab
    exact (hothers (hself ▸ hne)).mp hab
  have hold : Acyclic fun x y => x ≠ w.request.ownerUuid ∧ s.WaitsFor x y :=
    hacyclic.mono fun _ _ hxy => hxy.2
  rw [acyclic_iff_of_out (x := request.ownerUuid) hold]
  · constructor
    · exact fun hways _ b hb => hways b (hedge.mpr ⟨Ne.symm hself, hb⟩)
    · exact fun hcuts b hb => hcuts hself b (hedge.mp hb).2
  · intro a b ha hab
    obtain ⟨hne, hab⟩ := hedge.mp hab
    exact ⟨hne, (hothers ha).mp hab⟩
  · rintro a b ha ⟨hne, hab⟩
    exact hedge.mpr ⟨hne, (hothers ha).mpr hab⟩

theorem acyclic_acquire_iff (h : Tracked s) (hacyclic : Acyclic s.WaitsFor)
    (hdetect : request.requiresDeadlockDetection = true)
    (hlocal : request.distributedWait = false) (horderly : s.Orderly request) :
    Acyclic (s.acquire request now).2.WaitsFor ↔ s.VictimCuts request now := by
  rw [VictimCuts]
  have hmove := acquire_move s request now
  generalize (s.acquire request now).2 = after at hmove ⊢
  cases hmove with
  | same hqueues => exact iff_of_true hacyclic fun htrue => absurd htrue hqueues
  | granted _ hfree =>
    refine iff_of_true (acyclic_addGrant hacyclic (horderly.1 hfree)) fun hqueues => ?_
    exact absurd hfree hqueues.blocked
  | queued _ hnone =>
    rw [hdetect] at hnone
    cases hnone
  | resolved hqueues =>
    rw [acyclic_resolved_iff rfl h hacyclic hqueues hlocal horderly]
    exact ⟨fun hcuts _ => hcuts, fun hcuts => hcuts hqueues⟩

theorem Tracked.acquire (h : Tracked s) (hdetect : request.requiresDeadlockDetection = true)
    (hlocal : request.distributedWait = false) (horderly : s.Orderly request) :
    Tracked (s.acquire request now).2 := by
  have hmove := acquire_move s request now
  generalize (s.acquire request now).2 = after at hmove ⊢
  cases hmove with
  | same => exact h
  | granted _ hfree => exact h.addGrant hfree (horderly.1 hfree)
  | queued _ hnone =>
    rw [hdetect] at hnone
    cases hnone
  | resolved hqueues =>
    exact (h.queuedBy hqueues.shape hqueues.blocked hqueues.inTime hlocal horderly).detect.1

/-! ## Runs -/

theorem tracked_empty : Tracked {} := by
  refine ⟨queued_run [], labelled_run [], ⟨?_, ?_, ?_⟩, ?_⟩
  · intro id w hw
    cases hw
  · intro i j v w hv
    cases hv
  · intro i j k u v w hu
    cases hu
  · intro id w hw
    cases hw

theorem acyclic_empty : Acyclic (WaitsFor {}) := by
  intro a ha
  obtain ⟨b, ⟨-, id, w, hw, -⟩, -⟩ := TransGen.head'_iff.mp ha
  cases hw

/-- The search is run for every request, on local waits, and requests are
orderly. -/
def Searched (operations : List LockWaitOperation) : Prop :=
  ∀ done request now, done ++ [.acquire request now] <+: operations →
    request.requiresDeadlockDetection = true ∧ request.distributedWait = false ∧
      (run done).Orderly request

/-- In a run of orderly requests, no request leaves a deadlock exactly when each
search picks a victim that stands on all ways back to the request's owner. -/
theorem acyclic_after_acquire_iff {operations : List LockWaitOperation}
    (hsearched : Searched operations) :
    (∀ done request now, done ++ [.acquire request now] <+: operations →
      Acyclic (run (done ++ [.acquire request now])).WaitsFor) ↔
    ∀ done request now, done ++ [.acquire request now] <+: operations →
      (run done).VictimCuts request now := by
  -- either side carries the invariant through the whole run
  have hrun : (∀ done request now, done ++ [.acquire request now] <+: operations →
      Tracked (run done) → Acyclic (run done).WaitsFor →
        Acyclic (run (done ++ [.acquire request now])).WaitsFor) →
      ∀ done, done <+: operations → Tracked (run done) ∧ Acyclic (run done).WaitsFor := by
    intro hstep done
    induction done using List.reverseRecOn with
    | nil => exact fun _ => ⟨tracked_empty, acyclic_empty⟩
    | append_singleton done operation ih =>
      intro hprefix
      obtain ⟨htracked, hacyclic⟩ := ih ((List.prefix_append done [operation]).trans hprefix)
      cases operation with
      | acquire request now =>
        obtain ⟨hdetect, hlocal, horderly⟩ := hsearched done request now hprefix
        refine ⟨?_, hstep done request now hprefix htracked hacyclic⟩
        rw [run_append]
        exact htracked.acquire hdetect hlocal horderly
      | _ =>
        rw [run_append]
        exact htracked.apply_other hacyclic (by simp)
  have hone : ∀ done request now, done ++ [.acquire request now] <+: operations →
      Tracked (run done) → Acyclic (run done).WaitsFor →
        (Acyclic (run (done ++ [.acquire request now])).WaitsFor ↔
          (run done).VictimCuts request now) := by
    intro done request now hprefix htracked hacyclic
    obtain ⟨hdetect, hlocal, horderly⟩ := hsearched done request now hprefix
    rw [run_append]
    exact acyclic_acquire_iff htracked hacyclic hdetect hlocal horderly
  constructor
  · intro hafter done request now hprefix
    obtain ⟨htracked, hacyclic⟩ := hrun (fun done request now hp _ _ =>
      hafter done request now hp) done ((List.prefix_append done _).trans hprefix)
    exact (hone done request now hprefix htracked hacyclic).mp (hafter done request now hprefix)
  · intro hcuts done request now hprefix
    exact (hrun (fun done request now hp htracked hacyclic =>
      (hone done request now hp htracked hacyclic).mpr (hcuts done request now hp))
        _ hprefix).2

/-- Two writers wait for each other, and the second to do so is the victim. -/
def crossingWriters : List LockWaitOperation :=
  [.acquire (relationRequest 2 7 .exclusiveWrite) 0,
   .acquire (relationRequest 1 8 .exclusiveWrite) 0,
   .acquire (relationRequest 2 8 .exclusiveWrite) 0,
   .acquire (relationRequest 1 7 .exclusiveWrite) 0]

/-- What a run has to meet at each request, as one check over its length. -/
def requestsMeet (operations : List LockWaitOperation)
    (p : MGALockWaitLifecycle → MGALockRequest → Nat → Bool) : Bool :=
  (List.range operations.length).all fun n =>
    match operations[n]? with
    | some (.acquire request now) => p (run (operations.take n)) request now
    | _ => true

theorem crossingWriters_meets (h : done ++ [.acquire request now] <+: crossingWriters) :
    (request.requiresDeadlockDetection = true ∧
      request.distributedWait = false ∧ (run done).Orderly request) ∧
    ∀ victim ∈ ((run done).queuedBy request now).victimWait,
      victim.request.ownerUuid = request.ownerUuid := by
  have hmeets : requestsMeet crossingWriters (fun s request now => decide
      ((request.requiresDeadlockDetection = true ∧
        request.distributedWait = false ∧ s.Orderly request) ∧
      ∀ victim ∈ (s.queuedBy request now).victimWait,
        victim.request.ownerUuid = request.ownerUuid)) = true := by
    decide +kernel
  obtain ⟨rest, hrest⟩ := h
  rw [← hrest] at hmeets
  have hat := List.all_eq_true.mp hmeets done.length (by simp)
  simpa [imp_iff_not_or] using hat

theorem crossingWriters_searched : Searched crossingWriters := by
  intro done request now hprefix
  exact (crossingWriters_meets hprefix).1

theorem crossingWriters_acyclic : Acyclic (run crossingWriters).WaitsFor := by
  refine (acyclic_after_acquire_iff crossingWriters_searched).mpr ?_
    (crossingWriters.take 3) (relationRequest 1 7 .exclusiveWrite) 0 (List.prefix_refl _)
  intro done request now hprefix _ victim hvictim hother
  exact absurd ((crossingWriters_meets hprefix).2 victim hvictim) hother

/-- Owner 3 is granted a lock past the wait of owner 2, which then blocks it. -/
def grantedPastWait : List LockWaitOperation :=
  [.acquire (relationRequest 1 7 .sharedRead) 0, .acquire (relationRequest 2 8 .exclusiveWrite) 0,
   .acquire (relationRequest 2 7 .exclusiveWrite) 0, .acquire (relationRequest 3 7 .sharedRead) 0,
   .acquire (relationRequest 3 8 .exclusiveWrite) 0]

/-- Owner 1 has two waits and, as the victim, gives up the one outside the cycle. -/
def twoWaits : List LockWaitOperation :=
  [.acquire (relationRequest 1 5 .exclusiveWrite) 0,
   .acquire (relationRequest 2 6 .exclusiveWrite) 0,
   .acquire (relationRequest 3 7 .exclusiveWrite) 0,
   .acquire (relationRequest 1 6 .exclusiveWrite) 0,
   .acquire (relationRequest 1 7 .exclusiveWrite) 0,
   .acquire (relationRequest 3 5 .exclusiveWrite) 0]

/-- The drain grants owner 2 and tells owner 3, but not owner 4 behind it. -/
def thirdInQueue : List LockWaitOperation :=
  [.acquire (relationRequest 1 7 .exclusiveWrite) 0,
   .acquire (relationRequest 4 8 .exclusiveWrite) 0, .acquire (relationRequest 2 7 .sharedRead) 0,
   .acquire (relationRequest 3 7 .exclusiveWrite) 0,
   .acquire (relationRequest 4 7 .exclusiveWrite) 0, .releaseOwner (sampleUuid 1) 0,
   .acquire (relationRequest 2 8 .exclusiveWrite) 0]

/-- Owner 3 closes a cycle with owner 1 and one with owner 2. -/
def twoCycles : List LockWaitOperation :=
  [.acquire (relationRequest 3 5 .exclusiveWrite) 0,
   .acquire (relationRequest 3 6 .exclusiveWrite) 0, .acquire (relationRequest 1 7 .sharedRead) 0,
   .acquire (relationRequest 2 7 .sharedRead) 0, .acquire (relationRequest 1 5 .exclusiveWrite) 0,
   .acquire (relationRequest 2 6 .exclusiveWrite) 0,
   .acquire (relationRequest 3 7 .exclusiveWrite) 0]

/-- Each of the four conditions is needed. -/
theorem deadlocks_left :
    ¬Acyclic (run grantedPastWait).WaitsFor ∧ ¬Acyclic (run twoWaits).WaitsFor ∧
    ¬Acyclic (run thirdInQueue).WaitsFor ∧ ¬Acyclic (run twoCycles).WaitsFor := by
  refine ⟨not_acyclic_of_pair (a := sampleUuid 2) (b := sampleUuid 3) ?_,
    not_acyclic_of_pair (a := sampleUuid 1) (b := sampleUuid 3) ?_,
    not_acyclic_of_pair (a := sampleUuid 2) (b := sampleUuid 4) ?_,
    not_acyclic_of_pair (a := sampleUuid 2) (b := sampleUuid 3) ?_⟩
  all_goals decide +kernel

end MGALockWaitLifecycle

end ScratchBird.Mga
