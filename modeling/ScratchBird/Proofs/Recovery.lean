import ScratchBird.Proofs.Operations

/-!
# Recovery evolves the inventory

Recovery visits every entry, so unlike the other operations it can commit
several transactions in one call. The loop hands out sequences in the order it
meets the entries, and the facts the evolution validator needs are about the
whole pass: every entry either stays or advances, and two entries that received
a sequence in this pass received different ones. `Recovers` is the invariant of
the loop that says so; it is stated for the entries from some point of the pass
on and the counter at that point, which is the shape in which one round extends
it.

The classification decides which entries are touched, but no fact about it is
needed beyond the type of its answer: whatever action it picks, a transition
that goes through is an edge of the table.
-/

namespace ScratchBird.Mga

open Lib List

variable {e e' a b c x x' : TransactionInventoryEntry} {millis n n' n'' n₁ num : Nat}
  {next : TransactionState} {es es' : List TransactionInventoryEntry}
  {inventory : LocalTransactionInventory}

theorem transitionForRecovery_ok (h : transitionForRecovery e next millis = .ok e') :
    Edge e.state next ∧ (e' = { e with state := next } ∨ e' = { e with
          state := next
          finalUnixEpochMillis := millis
          evidenceRecordWritten := true }) := by
  unfold transitionForRecovery at h
  split at h
  · cases h
  next t hcheck =>
  refine ⟨edge_of_check hcheck, ?_⟩
  split at h
  · cases h
    exact .inr rfl
  · cases h
    exact .inl rfl

/-- A path of recovery transitions from a transaction without an outcome: the
entry moved to `e'.state`, nothing fixed at begin changed, and no sequence has
been assigned yet. -/
structure RecoveryPath (e e' : TransactionInventoryEntry) : Prop where
  identity : e'.identity = e.identity
  origin : e'.archivedFromState = e.archivedFromState
  beginMillis : e'.beginUnixEpochMillis = e.beginUnixEpochMillis
  beginId : e'.beginVisibleThroughLocalTransactionId = e.beginVisibleThroughLocalTransactionId
  beginCommit : e'.beginVisibleThroughCommitSequence = e.beginVisibleThroughCommitSequence
  stable : e'.stableSnapshot = e.stableSnapshot
  required : e.evidenceRecordRequired = true → e'.evidenceRecordRequired = true
  written : e.evidenceRecordWritten = true → e'.evidenceRecordWritten = true
  sequence : e'.commitSequence = e.commitSequence
  reach : stateReachable e.state e'.state = true

theorem RecoveryPath.trans (hab : RecoveryPath a b) (hbc : RecoveryPath b c) : RecoveryPath a c :=
  ⟨hbc.identity.trans hab.identity, hbc.origin.trans hab.origin,
    hbc.beginMillis.trans hab.beginMillis, hbc.beginId.trans hab.beginId,
    hbc.beginCommit.trans hab.beginCommit, hbc.stable.trans hab.stable,
    fun h => hbc.required (hab.required h), fun h => hbc.written (hab.written h),
    hbc.sequence.trans hab.sequence, stateReachable_trans hab.reach hbc.reach⟩

theorem transitionForRecovery_path (h : transitionForRecovery e next millis = .ok e') :
    RecoveryPath e e' ∧ e'.state = next := by
  obtain ⟨hedge, rfl | rfl⟩ := transitionForRecovery_ok h
  · exact ⟨⟨rfl, rfl, rfl, rfl, rfl, rfl, id, id, rfl, stateReachable_of_edge hedge⟩, rfl⟩
  · exact ⟨⟨rfl, rfl, rfl, rfl, rfl, rfl, id, fun _ => rfl, rfl, stateReachable_of_edge hedge⟩, rfl⟩

/-- A finished action left the entry alone or drove it to one of the two
outcomes recovery can decide. -/
theorem applyRecoveryAction_ok {action : TransactionRecoveryAction}
    (h : applyRecoveryAction e action millis = (e', none)) :
    e' = e ∨ (isTerminalTransactionState e.state = false ∧ RecoveryPath e e' ∧
      (e'.state = .committed ∨ e'.state = .rolledBack)) := by
  revert h
  fun_cases applyRecoveryAction e action millis with
  | case1 x hx =>
    rintro ⟨⟩
    obtain ⟨hpath, hstate⟩ := transitionForRecovery_path hx
    exact .inr ⟨not_terminal_of_edge (transitionForRecovery_ok hx).1 nofun, hpath, .inl hstate⟩
  | case4 x hx y hy =>
    rintro ⟨⟩
    obtain ⟨hpath, hstate⟩ := transitionForRecovery_path hy
    refine .inr ?_
    rw [enterRollingBack] at hx
    split at hx
    · cases hx
      exact ⟨not_terminal_of_edge (transitionForRecovery_ok hy).1 nofun, hpath, .inr hstate⟩
    · exact ⟨not_terminal_of_edge (transitionForRecovery_ok hx).1
        nofun, (transitionForRecovery_path hx).1.trans hpath, .inr hstate⟩
  | case6 =>
    rintro ⟨⟩
    exact .inl rfl
  | _ => exact nofun

/-- What a pass over `es` produced, with the counter at `n` before it and `n'`
after it. -/
structure Recovers (n n' : Nat) (es es' : List TransactionInventoryEntry) : Prop where
  counter : n ≤ n'
  ids : es'.map (·.localId) = es.map (·.localId)
  entry : ∀ x ∈ es', ∃ old ∈ es, x = old ∨
    (Advances n old x ∧ (x.state = .committed → x.commitSequence < n'))
  fresh : ∀ a ∈ es', ∀ b ∈ es', n ≤ a.commitSequence →
    a.commitSequence = b.commitSequence → a.localId = b.localId

theorem Advances.weaken (hn : n ≤ n') (h : Advances n' e e') :
    Advances n e e' := { h with commit := fun hc => Nat.le_trans hn (h.commit hc) }

/-- After a pass that started at `n'`, no entry holds a sequence between the
old ones and `n'`. -/
theorem Recovers.sequence_lt_or_ge (h : Recovers n' n'' es es')
    (hold : ∀ x ∈ es, x.commitSequence < n) :
    ∀ x ∈ es', x.commitSequence < n ∨ n' ≤ x.commitSequence := by
  intro x hx
  obtain ⟨old, hmem, rfl | ⟨hadv, _⟩⟩ := h.entry x hx
  · exact .inl (hold x hmem)
  · by_cases hc : x.state = .committed
    · exact .inr (hadv.commit hc)
    · rw [hadv.no_commit hc]
      exact .inl (hold old hmem)

/-- One round of the pass: the entry stays, or advances without taking a
sequence, or commits with the current one and moves the counter. -/
theorem Recovers.cons (hhead : (x' = x ∧ n₁ = n) ∨
      (Advances n x x' ∧ ((x'.state ≠ .committed ∧ n₁ = n) ∨
          (x'.state = .committed ∧ x'.commitSequence = n ∧ n₁ = n + 1))))
    (hold : ∀ y ∈ x :: es, y.commitSequence < n) (hrest : Recovers n₁ n' es es') :
    Recovers n n' (x :: es) (x' :: es') := by
  have hcount := hrest.counter
  have hn₁ : n ≤ n₁ := by rcases hhead with ⟨_, rfl⟩ | ⟨_, ⟨_, rfl⟩ | ⟨_, _, rfl⟩⟩ <;> omega
  have hx : x.commitSequence < n := hold x mem_cons_self
  have hkey : x'.localId = x.localId := by
    rcases hhead with ⟨rfl, _⟩ | ⟨hadv, _⟩
    · rfl
    · unfold TransactionInventoryEntry.localId
      rw [hadv.identity]
  have hseq : x'.commitSequence < n ∨ (x'.commitSequence = n ∧ n₁ = n + 1) := by
    rcases hhead with ⟨rfl, _⟩ | ⟨hadv, ⟨hne, _⟩ | ⟨_, hcs, hn⟩⟩
    · exact .inl hx
    · rw [hadv.no_commit hne]
      exact .inl hx
    · exact .inr ⟨hcs, hn⟩
  have hgap := hrest.sequence_lt_or_ge (forall_mem_cons.mp hold).2
  refine ⟨Nat.le_trans hn₁ hcount, ?_, ?_, ?_⟩
  · rw [map_cons, map_cons, hrest.ids, hkey]
  · intro y hy
    rcases mem_cons.mp hy with rfl | hy
    · refine ⟨x, mem_cons_self, ?_⟩
      rcases hhead with ⟨rfl, _⟩ | ⟨hadv, hcommit⟩
      · exact .inl rfl
      · refine .inr ⟨hadv, ?_⟩
        intro hc
        rcases hcommit with ⟨hne, _⟩ | ⟨_, hcs, hn⟩
        · exact absurd hc hne
        · omega
    · obtain ⟨old, hmem, heq | ⟨hadv, hlt⟩⟩ := hrest.entry y hy
      · exact ⟨old, mem_cons_of_mem _ hmem, .inl heq⟩
      · exact ⟨old, mem_cons_of_mem _ hmem, .inr ⟨hadv.weaken hn₁, hlt⟩⟩
  · intro a ha b hb hge heq
    rcases mem_cons.mp ha with rfl | ha
    · rcases mem_cons.mp hb with rfl | hb
      · rfl
      · have hb' := hgap b hb
        omega
    · have ha' := hgap a ha
      rcases mem_cons.mp hb with rfl | hb
      · omega
      · exact hrest.fresh a ha b hb (by omega) heq

theorem RecoveryLoop.accept_ok (loop : RecoveryLoop) (hn : loop.nextCommitSequence = n)
    (h : e' = e ∨ (isTerminalTransactionState e.state = false ∧
      RecoveryPath e e' ∧ (e'.state = .committed ∨ e'.state = .rolledBack))) :
    ∃ x n₁, (loop.accept e e').done = loop.done ++ [x] ∧
      (loop.accept e e').nextCommitSequence = n₁ ∧ ((x = e ∧ n₁ = n) ∨ (Advances n e x ∧
          ((x.state ≠ .committed ∧ n₁ = n) ∨
            (x.state = .committed ∧ x.commitSequence = n ∧ n₁ = n + 1)))) := by
  rcases h with rfl | ⟨hlive, hpath, hstate⟩
  · refine ⟨e', n, ?_, ?_, .inl ⟨rfl, rfl⟩⟩
    · simp [RecoveryLoop.accept]
    · simp [RecoveryLoop.accept, hn]
  have hterm : isTerminalTransactionState e'.state = true := by
    rcases hstate with hs | hs <;> rw [hs] <;> rfl
  have hne : e'.state ≠ e.state := Ne.symm (ne_of_not_terminal hlive hterm)
  unfold RecoveryLoop.accept
  rw [if_pos hne]
  rcases hstate with hs | hs
  · rw [if_pos hs]
    refine ⟨{ e' with commitSequence := loop.nextCommitSequence }, n + 1, rfl,
      by rw [hn], .inr ⟨?_, .inr ⟨hs, hn, rfl⟩⟩⟩
    exact { hpath with
      live := hlive
      state_ne := by simp [hs]
      not_archived := by simp [hs]
      commit := fun _ => Nat.le_of_eq hn.symm
      no_commit := absurd hs }
  · rw [if_neg (by simp [hs])]
    refine ⟨e', n, rfl, hn, .inr ⟨?_, .inl ⟨by simp [hs], rfl⟩⟩⟩
    exact { hpath with
      live := hlive
      state_ne := by simp [hs]
      not_archived := by simp [hs]
      commit := by simp [hs]
      no_commit := fun _ => hpath.sequence }

/-- The whole pass, by induction on the entries still to visit. -/
theorem recoverEntries_ok {loop loop' : RecoveryLoop}
    (hold : ∀ x ∈ es, x.commitSequence < loop.nextCommitSequence)
    (h : recoverEntries millis loop es = (loop', none)) :
    ∃ es', loop'.done = loop.done ++ es' ∧
      Recovers loop.nextCommitSequence loop'.nextCommitSequence es es' := by
  fun_induction recoverEntries millis loop es with
  | case1 =>
    cases h
    exact ⟨[], by simp, Nat.le_refl _, rfl, by simp, by simp⟩
  | case2 loop x es _ _ ih =>
    obtain ⟨es', hdone, hrec⟩ := ih (forall_mem_cons.mp hold).2 h
    refine ⟨x :: es', ?_, Recovers.cons (.inl ⟨rfl, rfl⟩) hold hrec⟩
    rw [hdone, append_assoc, singleton_append]
  | case3 => cases h
  | case4 loop x es _ _ x' hx' ih =>
    obtain ⟨y, n₁, hy, hnext, hhead⟩ := loop.accept_ok rfl (applyRecoveryAction_ok hx')
    have hle : loop.nextCommitSequence ≤ (loop.accept x x').nextCommitSequence := by
      rcases hhead with ⟨_, rfl⟩ | ⟨_, ⟨_, rfl⟩ | ⟨_, _, rfl⟩⟩ <;> omega
    obtain ⟨es', hdone, hrec⟩ :=
      ih (fun z hz => Nat.lt_of_lt_of_le (hold z (mem_cons_of_mem _ hz)) hle) h
    rw [hnext] at hrec
    refine ⟨y :: es', ?_, Recovers.cons hhead hold hrec⟩
    rw [hdone, hy, append_assoc, singleton_append]

/-! ## The two operations -/

theorem evolves_of_recovers (hwf : WellFormed inventory)
    (h : Recovers inventory.nextCommitSequence n inventory.entries es) :
    Evolves inventory { inventory with nextCommitSequence := n, entries := es } := by
  refine evolves_of_pointwise hwf h.counter h.ids ?_ h.fresh
  intro x hx
  obtain ⟨old, hmem, rfl | ⟨hadv, hlt⟩⟩ := h.entry x hx
  · exact ⟨x, hmem, rfl, (hwf.entry x hmem).mono h.counter, EntryEvolves.refl _ x⟩
  · exact ⟨old, hmem, hadv.identity, hadv.wellFormed (hwf.entry old hmem) h.counter hlt,
      hadv.evolves (hwf.entry old hmem)⟩

theorem evolves_applyLocalTransactionInventoryRecovery (hwf : WellFormed inventory)
    (h : (applyLocalTransactionInventoryRecovery inventory millis).diagnostic = none) :
    Evolves inventory (applyLocalTransactionInventoryRecovery inventory
        millis).recoveredInventory := by
  revert h
  fun_cases applyLocalTransactionInventoryRecovery inventory millis with
  | case1 _ hsome => exact fun h => absurd hsome (by rw [h]; exact Bool.false_ne_true)
  | case2 => exact nofun
  | case3 _ _ _ loop diagnostic hloop =>
    rintro rfl
    obtain ⟨es, hdone, hrec⟩ := recoverEntries_ok
      (fun x hx => (hwf.entry x hx).commitSequence_lt hwf.nextCommit_ne) hloop
    rw [hdone]
    exact evolves_of_recovers hwf hrec

theorem evolves_resolveLimboLocalTransactionWithOperatorDecision {decision : LimboOperatorDecision}
    {policy : LimboOperatorResolutionPolicy}
    {r : TransactionInventoryResult} (hwf : WellFormed inventory)
    (h : resolveLimboLocalTransactionWithOperatorDecision inventory num decision
      millis policy = .ok r) : Evolves inventory r.inventory := by
  unfold resolveLimboLocalTransactionWithOperatorDecision at h
  split at h
  · cases h
  simp only [recoveryInventoryError, guard_eq_ok_iff] at h
  obtain ⟨_, _, _, _, h⟩ := h
  split at h
  · cases h
  next e hfind =>
  simp only [guard_eq_ok_iff, bind_eq_ok_iff] at h
  obtain ⟨_, _, e₁, hrecovering, e₂, hterminal, h⟩ := h
  obtain ⟨hedge, _⟩ := transitionForRecovery_ok hrecovering
  obtain ⟨hpath₁, hstate₁⟩ := transitionForRecovery_path hrecovering
  obtain ⟨hedge₂, _⟩ := transitionForRecovery_ok hterminal
  obtain ⟨hpath₂, hstate₂⟩ := transitionForRecovery_path hterminal
  have hlive := not_terminal_of_edge hedge nofun
  have hmark : RecoveryPath e₁ { e₁ with evidenceRecordRequired := true } :=
    ⟨rfl, rfl, rfl, rfl, rfl, rfl, fun _ => rfl, id, rfl, stateReachable_refl _⟩
  have hpath := (hpath₁.trans hmark).trans hpath₂
  have hne : e₂.state ≠ .none ∧ e₂.state ≠ .archived := by
    rw [hstate₂]
    simp only [hstate₁, Edge] at hedge₂
    revert hedge₂
    cases decision <;> decide
  split at h
  · next hc =>
    cases h
    refine evolves_commit hwf hfind ?_ rfl
    exact { hpath with
      live := hlive
      state_ne := hne.1
      not_archived := hne.2
      commit := fun _ => Nat.le_refl _
      no_commit := absurd hc }
  · next hc =>
    cases h
    refine evolves_advance hwf hfind ?_ hc
    exact { hpath with
      live := hlive
      state_ne := hne.1
      not_archived := hne.2
      commit := fun hc' => absurd hc' hc
      no_commit := fun _ => hpath.sequence }

/-!
## What recovery leaves behind

Recovery reads two tables. The classification says what should become of an
entry, and the transition table says whether it can. They disagree in one place:
a local transaction in limbo, or one that is recovering, is classified for
rollback as soon as it is marked rollback-only, and no edge leads from either
state to `rollingBack`. One such entry stops the whole pass.

Without one, the pass goes through. Every entry it visits is afterwards one that
it would not touch again, because it failed closed and was not touched at all or
because it has an outcome; `LeftAlone` is that property, and a pass over such
entries changes nothing.
-/

variable {nextId nextCommit : Nat}

/-- Classified for rollback, with no edge to roll back along. -/
def RollbackOnlyLimbo (e : TransactionInventoryEntry) : Prop :=
  e.identity.scope = .localNode ∧ e.rollbackOnly = true ∧ (e.state = .limbo ∨ e.state = .recovering)

instance (e : TransactionInventoryEntry) : Decidable (RollbackOnlyLimbo e) :=
  inferInstanceAs (Decidable (_ ∧ _ ∧ (_ ∨ _)))

/-- An entry recovery leaves alone. -/
def LeftAlone (e : TransactionInventoryEntry) : Prop :=
  (classifyLocalTransactionForRecovery e).failClosed = true ∨
    (classifyLocalTransactionForRecovery e).action = .noAction

/-! ### The two tables -/

theorem EntryWellFormed.scope (hwf : EntryWellFormed nextId nextCommit e) :
    e.identity.scope = .localNode ∨ e.identity.scope = .clusterGlobal := by
  have hne := scope_ne_of_valid hwf.identity
  cases hscope : e.identity.scope with
  | localNode => exact .inl rfl
  | clusterGlobal => exact .inr rfl
  | unknown => exact absurd hscope hne

theorem classify_failClosed :
    (classifyLocalTransactionForRecovery e).failClosed = (classifyRecoveryAction e).2.1 :=
  rfl

theorem classify_action :
    (classifyLocalTransactionForRecovery e).action = (classifyRecoveryAction e).1 :=
  rfl

/-- The classification as the three things it can lead to. -/
theorem classify_open (hwf : EntryWellFormed nextId nextCommit e)
    (hopen : (classifyLocalTransactionForRecovery e).failClosed = false) :
    ((classifyLocalTransactionForRecovery e).action = .noAction ∧
      (e.state = .committed ∨ e.state = .rolledBack ∨ e.state = .archived)) ∨
    ((classifyLocalTransactionForRecovery e).action = .completeCommit ∧ e.state = .committing) ∨
    ((classifyLocalTransactionForRecovery e).action = .completeRollback ∧
      (Edge e.state .rollingBack ∨ e.state = .rollingBack ∨ RollbackOnlyLimbo e)) := by
  rw [classify_failClosed] at hopen
  rw [classify_action]
  revert hopen
  fun_cases classifyRecoveryAction e with
  | case5 _ _ hfailed hcluster hmarked =>
    refine fun _ => .inr (.inr ⟨rfl, ?_⟩)
    obtain ⟨hmark, hcommitted, hcommitting, hrolled, harchived⟩ := hmarked
    rw [inventoryVisibilityState_of_not_archived harchived (hwf.origin_none harchived)] at hfailed
    have hlocal : e.state = .limbo ∨ e.state = .recovering → e.identity.scope = .localNode := by
      intro hs
      refine hwf.scope.resolve_right fun hglobal => hcluster ⟨hglobal, ?_⟩
      rcases hs with hs | hs <;> rw [hs] <;> decide
    have hne := hwf.state_ne
    cases hstate : e.state with
    | created | active | readOnlyActive | preparing | prepared => exact .inl rfl
    | rollingBack => exact .inr (.inl rfl)
    | limbo => exact .inr (.inr ⟨hlocal (.inl hstate), hmark, .inl hstate⟩)
    | recovering => exact .inr (.inr ⟨hlocal (.inr hstate), hmark, .inr hstate⟩)
    | _ => contradiction
  | case7 _ _ _ _ _ hs | case8 _ _ _ _ _ hs | case9 _ _ _ _ _ hs | case10 _ _ _ _ _ hs =>
    exact fun _ => .inr (.inr ⟨rfl, .inl (by rw [hs]; rfl)⟩)
  | case13 _ _ _ _ _ hs => exact fun _ => .inr (.inl ⟨rfl, hs⟩)
  | case14 _ _ _ _ _ hs => exact fun _ => .inr (.inr ⟨rfl, .inr (.inl hs)⟩)
  | case15 _ _ _ _ _ hs | case16 _ _ _ _ _ hs | case17 _ _ _ _ _ hs =>
    exact fun _ => .inl ⟨rfl, by simp [hs]⟩
  | _ => exact nofun

theorem classify_stuck (hwf : EntryWellFormed nextId nextCommit e) (h : RollbackOnlyLimbo e) :
    (classifyLocalTransactionForRecovery e).failClosed = false ∧
      (classifyLocalTransactionForRecovery e).action = .completeRollback := by
  obtain ⟨hscope, hmark, hstate⟩ := h
  have harchived : e.state ≠ .archived := by rcases hstate with hs | hs <;> rw [hs] <;> decide
  have horigin := hwf.origin_none harchived
  rw [classify_failClosed, classify_action, classifyRecoveryAction,
    inventoryVisibilityState_of_not_archived harchived horigin]
  rcases hstate with hs | hs <;> simp [hscope, hmark, horigin, hs]

theorem leftAlone_of_outcome
    (hscope : e.identity.scope = .localNode ∨ e.identity.scope = .clusterGlobal)
    (horigin : e.archivedFromState = .none)
    (hstate : e.state = .committed ∨ e.state = .rolledBack) : LeftAlone e := by
  have harchived : e.state ≠ .archived := by rcases hstate with hs | hs <;> rw [hs] <;> decide
  refine .inr ?_
  rw [classify_action, classifyRecoveryAction,
    inventoryVisibilityState_of_not_archived harchived horigin]
  rcases hscope with hscope | hscope <;> rcases hstate with hs | hs <;>
    simp [hscope, horigin, hs]

theorem check_of_edge {source target : TransactionState} (h : Edge source target) :
    ∃ t, checkTransactionStateTransition source target true = .ok t := by
  obtain ⟨t, ht, hmatch⟩ := any_eq_true.mp h
  rw [checkTransactionStateTransition]
  split
  · next found _ => exact ⟨found, by simp⟩
  · next hnone => exact absurd hmatch (List.find?_eq_none.mp hnone t ht)

theorem transitionForRecovery_of_edge {next : TransactionState}
    (h : Edge e.state next) (millis : Nat) :
    ∃ e', transitionForRecovery e next millis = .ok e' := by
  obtain ⟨t, ht⟩ := check_of_edge h
  rw [transitionForRecovery, ht]
  dsimp only
  split
  · exact ⟨_, rfl⟩
  · exact ⟨_, rfl⟩

/-! ### One entry -/

theorem applyRecoveryAction_stuck (h : RollbackOnlyLimbo e) (millis : Nat) :
    (applyRecoveryAction e .completeRollback millis).2 ≠ none := by
  have hrefused : ∃ d, enterRollingBack e millis = .error d := by
    rw [enterRollingBack, transitionForRecovery]
    rcases h.2.2 with hs | hs <;> rw [hs] <;> exact ⟨_, rfl⟩
  obtain ⟨d, hd⟩ := hrefused
  rw [applyRecoveryAction, hd]
  exact Option.some_ne_none d

theorem applyRecoveryAction_rollback
    (h : Edge e.state .rollingBack ∨ e.state = .rollingBack) (millis : Nat) :
    ∃ e', applyRecoveryAction e .completeRollback millis = (e', none) ∧ e'.state = .rolledBack := by
  have henter : ∃ e₁, enterRollingBack e millis = .ok e₁ ∧ e₁.state = .rollingBack := by
    rw [enterRollingBack]
    by_cases hs : e.state = .rollingBack
    · rw [if_pos hs]
      exact ⟨e, rfl, hs⟩
    · rw [if_neg hs]
      obtain ⟨e₁, he₁⟩ := transitionForRecovery_of_edge (h.resolve_right hs) millis
      exact ⟨e₁, he₁, (transitionForRecovery_path he₁).2⟩
  obtain ⟨e₁, he₁, hstate₁⟩ := henter
  have hedge : Edge e₁.state .rolledBack := by
    rw [hstate₁]
    rfl
  obtain ⟨e₂, he₂⟩ := transitionForRecovery_of_edge hedge millis
  refine ⟨e₂, ?_, (transitionForRecovery_path he₂).2⟩
  rw [applyRecoveryAction, he₁]
  simp only [he₂]

/-- What one round makes of an entry. -/
structure Recovered (e e' : TransactionInventoryEntry) : Prop where
  unchanged : (classifyLocalTransactionForRecovery e).failClosed = true → e' = e
  outcome : (classifyLocalTransactionForRecovery e).failClosed = false →
    e'.state = .committed ∨ e'.state = .rolledBack ∨ e'.state = .archived
  left : LeftAlone e'

/-- An entry that is not stuck goes through, untouched or to an outcome. -/
theorem applyRecoveryAction_completes
    (hwf : EntryWellFormed nextId nextCommit e) (hfree : ¬RollbackOnlyLimbo e)
    (hopen : (classifyLocalTransactionForRecovery e).failClosed = false) (millis : Nat) :
    ∃ e', applyRecoveryAction e (classifyLocalTransactionForRecovery e).action millis = (e', none) ∧
      ((e' = e ∧ Recovered e e) ∨ (e'.state = .committed ∨ e'.state = .rolledBack)) := by
  rcases classify_open hwf hopen with
    ⟨haction, hstate⟩ | ⟨haction, hstate⟩ | ⟨haction, hstate⟩
  · rw [haction]
    exact ⟨e, rfl, .inl ⟨rfl, fun _ => rfl, fun _ => hstate, .inr haction⟩⟩
  · have hedge : Edge e.state .committed := by
      rw [hstate]
      rfl
    obtain ⟨e', he'⟩ := transitionForRecovery_of_edge hedge millis
    refine ⟨e', ?_, .inr (.inl (transitionForRecovery_path he').2)⟩
    rw [haction, applyRecoveryAction, he']
  · rw [haction]
    obtain ⟨e', he', hrolled⟩ := applyRecoveryAction_rollback
      (hstate.imp_right fun hs => hs.resolve_right hfree) millis
    exact ⟨e', he', .inr (.inr hrolled)⟩

theorem RecoveryLoop.accept_self (loop : RecoveryLoop) :
    loop.accept e e = { loop with done := loop.done ++ [e] } := by
  rw [RecoveryLoop.accept, if_neg (not_not_intro rfl)]

theorem RecoveryLoop.accept_done (loop : RecoveryLoop) (e e' : TransactionInventoryEntry) :
    ∃ x, (loop.accept e e').done = loop.done ++ [x] ∧ x.state = e'.state ∧
      x.identity = e'.identity ∧ x.archivedFromState = e'.archivedFromState := by
  rw [RecoveryLoop.accept]
  split
  · split
    · exact ⟨_, rfl, rfl, rfl, rfl⟩
    · exact ⟨_, rfl, rfl, rfl, rfl⟩
  · exact ⟨_, rfl, rfl, rfl, rfl⟩

theorem RecoveryLoop.accept_recovered (loop : RecoveryLoop)
    (hwf : EntryWellFormed nextId nextCommit e) (hfree : ¬RollbackOnlyLimbo e)
    (hopen : (classifyLocalTransactionForRecovery e).failClosed = false)
    (h : applyRecoveryAction e (classifyLocalTransactionForRecovery e).action millis = (e', none)) :
    ∃ x, (loop.accept e e').done = loop.done ++ [x] ∧ Recovered e x := by
  obtain ⟨e₁, he₁, hcase⟩ := applyRecoveryAction_completes hwf hfree hopen millis
  obtain rfl : e₁ = e' := congrArg Prod.fst (he₁.symm.trans h)
  rcases hcase with ⟨rfl, hsame⟩ | hstate
  · rw [loop.accept_self]
    exact ⟨e₁, rfl, hsame⟩
  · obtain ⟨x, hdone, hxstate, hxidentity, hxorigin⟩ := loop.accept_done e e₁
    refine ⟨x, hdone, ?_, ?_, ?_⟩
    · intro hclosed
      exact absurd hclosed (by simp [hopen])
    · intro _
      rw [hxstate]
      exact hstate.imp_right .inl
    · have hsame : e₁.identity = e.identity ∧
          e₁.archivedFromState = e.archivedFromState ∧ e.state ≠ .archived := by
        rcases applyRecoveryAction_ok h with rfl | ⟨hlive, hpath, -⟩
        · refine ⟨rfl, rfl, fun harchived => ?_⟩
          rw [harchived] at hstate
          exact absurd hstate nofun
        · refine ⟨hpath.identity, hpath.origin, fun harchived => ?_⟩
          rw [harchived] at hlive
          cases hlive
      refine leftAlone_of_outcome ?_ ?_ (hxstate ▸ hstate)
      · rw [hxidentity, hsame.1]
        exact hwf.scope
      · rw [hxorigin, hsame.2.1]
        exact hwf.origin_none hsame.2.2

/-! ### The pass -/

theorem recoverEntries_completes (hwf : ∀ x ∈ es, EntryWellFormed nextId nextCommit x)
    (hfree : ∀ x ∈ es, ¬RollbackOnlyLimbo x) (millis : Nat) (loop : RecoveryLoop) :
    ∃ loop' es', recoverEntries millis loop es = (loop', none) ∧
      loop'.done = loop.done ++ es' ∧ List.Forall₂ Recovered es es' := by
  fun_induction recoverEntries millis loop es with
  | case1 loop => exact ⟨loop, [], rfl, (append_nil _).symm, .nil⟩
  | case2 loop x es _ hclosed ih =>
    obtain ⟨loop', es', hrun, hdone, hall⟩ :=
      ih (forall_mem_cons.mp hwf).2 (forall_mem_cons.mp hfree).2
    refine ⟨loop', x :: es', hrun, ?_, .cons ?_ hall⟩
    · rw [hdone, append_assoc, singleton_append]
    · exact ⟨fun _ => rfl, fun hopen => Bool.noConfusion (hclosed.symm.trans hopen), .inl hclosed⟩
  | case3 loop x es _ hopen x' d hx' =>
    obtain ⟨y, hy, -⟩ := applyRecoveryAction_completes (hwf x mem_cons_self)
      (hfree x mem_cons_self) (Bool.eq_false_iff.mpr hopen) millis
    cases hx'.symm.trans hy
  | case4 loop x es _ hopen x' hx' ih =>
    obtain ⟨y, hy, hrecovered⟩ := loop.accept_recovered (hwf x mem_cons_self)
      (hfree x mem_cons_self) (Bool.eq_false_iff.mpr hopen) hx'
    obtain ⟨loop', es', hrun, hdone, hall⟩ :=
      ih (forall_mem_cons.mp hwf).2 (forall_mem_cons.mp hfree).2
    refine ⟨loop', y :: es', hrun, ?_, .cons hrecovered hall⟩
    rw [hdone, hy, append_assoc, singleton_append]

/-- A stuck entry stops the pass, unless an earlier one has. -/
theorem recoverEntries_stuck (hwf : ∀ x ∈ es, EntryWellFormed nextId nextCommit x)
    (hstuck : ∃ x ∈ es, RollbackOnlyLimbo x) (millis : Nat)
    (loop : RecoveryLoop) : (recoverEntries millis loop es).2 ≠ none := by
  fun_induction recoverEntries millis loop es with
  | case1 =>
    obtain ⟨x, hx, -⟩ := hstuck
    cases hx
  | case2 loop y es _ hclosed ih =>
    refine ih (forall_mem_cons.mp hwf).2 (((List.exists_mem_cons_iff ..).mp hstuck).resolve_left ?_)
    intro hlimbo
    cases hclosed.symm.trans (classify_stuck (hwf y mem_cons_self) hlimbo).1
  | case3 => exact Option.some_ne_none _
  | case4 loop y es _ _ y' hy' ih =>
    refine ih (forall_mem_cons.mp hwf).2 (((List.exists_mem_cons_iff ..).mp hstuck).resolve_left ?_)
    intro hlimbo
    have hrefused := applyRecoveryAction_stuck hlimbo millis
    rw [← (classify_stuck (hwf y mem_cons_self) hlimbo).2, hy'] at hrefused
    exact hrefused rfl

/-- A pass over such entries. -/
theorem recoverEntries_leftAlone (h : ∀ x ∈ es, LeftAlone x) (millis : Nat) (loop : RecoveryLoop) :
    ∃ fenced, recoverEntries millis loop es =
      ({ loop with done := loop.done ++ es, fenced := fenced }, none) := by
  fun_induction recoverEntries millis loop es with
  | case1 loop => exact ⟨loop.fenced, by rw [append_nil]⟩
  | case2 loop x es _ _ ih =>
    obtain ⟨fenced, hrun⟩ := ih (forall_mem_cons.mp h).2
    refine ⟨fenced, ?_⟩
    rw [hrun, append_assoc, singleton_append]
  | case3 loop x es _ hopen x' d hx' =>
    rw [(h x mem_cons_self).resolve_left hopen] at hx'
    cases hx'
  | case4 loop x es _ hopen x' hx' ih =>
    rw [(h x mem_cons_self).resolve_left hopen] at hx'
    cases hx'
    obtain ⟨fenced, hrun⟩ := ih (forall_mem_cons.mp h).2
    refine ⟨fenced, ?_⟩
    rw [hrun, loop.accept_self, append_assoc, singleton_append]

/-! ### The whole call -/

/-- A commit sequence is left for every commit that recovery completes. -/
def RecoveryHeadroom (inventory : LocalTransactionInventory) : Prop :=
  recoveryCommitCount (inventory.entries.map classifyLocalTransactionForRecovery) ≤
    u64Max - inventory.nextCommitSequence

instance (inventory : LocalTransactionInventory) :
    Decidable (RecoveryHeadroom inventory) := inferInstanceAs (Decidable (_ ≤ _))

theorem classifyEntriesForRecovery_ok
    (inventory : LocalTransactionInventory) (hvalid : ∀ x ∈ es, x.identity.valid = true)
    (done : List TransactionRecoveryClassification) (fenced : Bool) :
    ∃ fenced', classifyEntriesForRecovery inventory es done fenced =
      { diagnostic := none
        classifications := done ++ es.map classifyLocalTransactionForRecovery
        recoveredInventory := inventory
        writeAdmissionMustRemainFenced := fenced' } := by
  induction es generalizing done fenced with
  | nil => exact ⟨fenced, by rw [map_nil, append_nil]; rfl⟩
  | cons x es ih =>
    rw [classifyEntriesForRecovery, hvalid x mem_cons_self]
    obtain ⟨fenced', hrest⟩ :=
      ih (forall_mem_cons.mp hvalid).2 (done ++ [classifyLocalTransactionForRecovery x])
        (fenced || (classifyLocalTransactionForRecovery x).failClosed)
    refine ⟨fenced', ?_⟩
    rw [map_cons, ← singleton_append, ← append_assoc]
    exact hrest

/-- With room for its commits the call is the pass. -/
theorem applyLocalTransactionInventoryRecovery_eq (hwf : WellFormed inventory)
    (hroom : RecoveryHeadroom inventory) (millis : Nat) :
    ∃ loop : RecoveryLoop, loop.nextCommitSequence = inventory.nextCommitSequence ∧
      loop.done = [] ∧ loop.changed = false ∧
      (applyLocalTransactionInventoryRecovery inventory millis).diagnostic =
        (recoverEntries millis loop inventory.entries).2 ∧
      (applyLocalTransactionInventoryRecovery inventory millis).recoveredInventory =
        { inventory with
          nextCommitSequence := (recoverEntries millis loop inventory.entries).1.nextCommitSequence
          entries := (recoverEntries millis loop inventory.entries).1.done } ∧
      (applyLocalTransactionInventoryRecovery inventory millis).inventoryChanged =
        (recoverEntries millis loop inventory.entries).1.changed := by
  obtain ⟨fenced, hclassified⟩ := classifyEntriesForRecovery_ok inventory
    (fun x hx => (hwf.entry x hx).identity) [] false
  have hclass : classifyLocalTransactionInventoryForRecovery inventory =
      classifyEntriesForRecovery inventory inventory.entries [] false := by
    rw [classifyLocalTransactionInventoryForRecovery, validateStructure_eq_none_iff.mpr hwf]
  refine ⟨{ nextCommitSequence := inventory.nextCommitSequence, fenced }, rfl, rfl, rfl, ?_⟩
  have hcount : ¬recoveryCommitCount
      ([] ++ inventory.entries.map classifyLocalTransactionForRecovery) >
        u64Max - inventory.nextCommitSequence := by
    exact Nat.not_lt.mpr hroom
  rw [applyLocalTransactionInventoryRecovery, hclass, hclassified]
  simp only [Option.isSome_none, Bool.false_eq_true, ↓reduceIte, if_neg hcount, and_self]

theorem recoveryHeadroom_of_leftAlone
    (h : ∀ x ∈ inventory.entries, LeftAlone x) : RecoveryHeadroom inventory := by
  have hnone : recoveryCommitCount
      (inventory.entries.map classifyLocalTransactionForRecovery) = 0 := by
    rw [recoveryCommitCount, List.countP_eq_zero]
    intro c hc
    obtain ⟨x, hx, rfl⟩ := mem_map.mp hc
    rcases h x hx with hclosed | haction
    · simp [hclosed]
    · simp [haction]
  rw [RecoveryHeadroom, hnone]
  exact Nat.zero_le _

theorem recovery_unchanged (hwf : WellFormed inventory)
    (h : ∀ x ∈ inventory.entries, LeftAlone x) (millis : Nat) :
    (applyLocalTransactionInventoryRecovery inventory millis).diagnostic = none ∧
      (applyLocalTransactionInventoryRecovery inventory millis).inventoryChanged = false ∧
      (applyLocalTransactionInventoryRecovery inventory millis).recoveredInventory = inventory := by
  obtain ⟨loop, hnext, hdone, hchanged, hdiagnostic, hinventory, hreport⟩ :=
    applyLocalTransactionInventoryRecovery_eq hwf (recoveryHeadroom_of_leftAlone h) millis
  obtain ⟨fenced, hrun⟩ := recoverEntries_leftAlone h millis loop
  rw [hdiagnostic, hinventory, hreport, hrun]
  refine ⟨rfl, hchanged, ?_⟩
  simp only [hnext, hdone, nil_append]

/-- Recovery goes through exactly when no marked transaction is in limbo. Then
the entries that fail closed stay, the others get an outcome, and a second
recovery finds nothing to do. -/
theorem recovery_completes_iff
    (hvalid : validateLocalTransactionInventoryStructure inventory = none)
    (hroom : RecoveryHeadroom inventory) (millis : Nat) :
    ((applyLocalTransactionInventoryRecovery inventory millis).diagnostic =
        none ↔ ∀ e ∈ inventory.entries, ¬RollbackOnlyLimbo e) ∧
    ((applyLocalTransactionInventoryRecovery inventory millis).diagnostic = none →
      List.Forall₂ (fun e e' =>
          ((classifyLocalTransactionForRecovery e).failClosed = true → e' = e) ∧
          ((classifyLocalTransactionForRecovery e).failClosed = false →
            e'.state = .committed ∨ e'.state = .rolledBack ∨ e'.state = .archived))
        inventory.entries
        (applyLocalTransactionInventoryRecovery inventory millis).recoveredInventory.entries ∧
      ∀ again,
        let second := applyLocalTransactionInventoryRecovery
          (applyLocalTransactionInventoryRecovery inventory millis).recoveredInventory again
        second.diagnostic = none ∧ second.inventoryChanged = false) := by
  have hwf := validateStructure_eq_none_iff.mp hvalid
  obtain ⟨loop, -, hdone, -, hdiagnostic, hinventory, -⟩ :=
    applyLocalTransactionInventoryRecovery_eq hwf hroom millis
  have hiff : (applyLocalTransactionInventoryRecovery inventory millis).diagnostic = none ↔
        ∀ e ∈ inventory.entries, ¬RollbackOnlyLimbo e := by
    rw [hdiagnostic]
    constructor
    · intro hnone e he hlimbo
      exact recoverEntries_stuck hwf.entry ⟨e, he, hlimbo⟩ millis loop hnone
    · intro hfree
      obtain ⟨_, _, hrun, -⟩ := recoverEntries_completes hwf.entry hfree millis loop
      rw [hrun]
  refine ⟨hiff, fun hnone => ?_⟩
  obtain ⟨loop', es', hrun, hdone', hall⟩ :=
    recoverEntries_completes hwf.entry (hiff.mp hnone) millis loop
  have hentries : (applyLocalTransactionInventoryRecovery inventory
      millis).recoveredInventory.entries = es' := by
    rw [hinventory, hrun, hdone', hdone, nil_append]
  rw [hentries]
  refine ⟨hall.imp fun e e' h => ⟨h.unchanged, h.outcome⟩, fun again => ?_⟩
  have hleft : ∀ x ∈ (applyLocalTransactionInventoryRecovery inventory
      millis).recoveredInventory.entries, LeftAlone x := by
    rw [hentries]
    exact ((List.forall₂_and_left es' inventory.entries).mp
      (hall.flip.imp fun e' e h => ⟨h.left, h⟩)).1
  have hafter := (evolves_applyLocalTransactionInventoryRecovery hwf hnone).wfAfter
  obtain ⟨hsecond, hchanged, -⟩ := recovery_unchanged hafter hleft again
  exact ⟨hsecond, hchanged⟩

/-- A transaction in limbo, and behind it one that is still active. -/
def limboInventory : LocalTransactionInventory where
  nextLocalTransactionId := 3
  entries :=
    [{ identity := ⟨1, ⟨.transaction, engineUuid 1⟩, .localNode⟩, state := .limbo },
     { identity := ⟨2, ⟨.transaction, engineUuid 2⟩, .localNode⟩, state := .active }]

/-- Before the mark, recovery rolls the active transaction back. -/
theorem limboInventory_completes :
    ((applyLocalTransactionInventoryRecovery limboInventory 7).diagnostic =
        none ↔ ∀ e ∈ limboInventory.entries, ¬RollbackOnlyLimbo e) ∧
      (applyLocalTransactionInventoryRecovery limboInventory
        7).recoveredInventory.entries.map (·.state) = [.limbo, .rolledBack] :=
  ⟨(recovery_completes_iff (by decide +kernel) (by decide +kernel) 7).1,
    by decide +kernel⟩

/-- The mark is accepted in limbo, and the next recovery fails and leaves the
active transaction as it was. -/
theorem markedLimbo_stops_recovery :
    ∃ marked, markLocalTransactionRollbackOnly limboInventory 1 = .ok marked ∧
      validateLocalTransactionInventoryStructure marked.inventory = none ∧
      RecoveryHeadroom marked.inventory ∧ (applyLocalTransactionInventoryRecovery marked.inventory
        7).diagnostic.isSome ∧
      (applyLocalTransactionInventoryRecovery marked.inventory
        7).recoveredInventory.entries.map (·.state) = [.limbo, .active] := by
  decide +kernel

end ScratchBird.Mga
