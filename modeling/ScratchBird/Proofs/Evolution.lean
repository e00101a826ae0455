import ScratchBird.Mga.Run
import ScratchBird.Proofs.Recovery

/-!
# Histories

The evolution validator sees two neighbouring inventories and nothing else. A
history is a chain of such pairs, and entries can leave it: compaction drops a
resolved transaction, and no later pair mentions it again. What survives across
a whole history is therefore weaker than `Evolves`, which is not transitive: a
transaction may be unresolved in one inventory, resolved in the next and gone
in the third.

`Extends` is the part that is transitive. An entry of the later inventory was
already in the earlier one, with its identity and its begin fields and, if it
had one, its outcome; or it is younger than the earlier inventory in both
counters, in its number and in the sequence it committed with. The second half
is what rules out reuse: a number or a sequence that a dropped transaction held
lies below a counter that only grows.
-/

namespace ScratchBird.Mga

open Lib

variable {inventory before after inventory' : LocalTransactionInventory} {readOnly stable : Bool}
  {millis n n' num i j : Nat} {r : TransactionInventoryResult}
  {old e new : TransactionInventoryEntry} {uuid : TypedUuid} {a b : TransactionInventoryEntry}

/-! ## Every operation, every run -/

section

variable (h : beginWithIsolation inventory readOnly stable uuid millis = .ok r)
include h

theorem beginWithIsolation_ok :
    ∃ first begun, beginLocalTransactionWithState inventory uuid millis first = .ok begun ∧
      r.inventory =
        { begun.inventory with
          entries := inventory.entries ++ [{ begun.entry with stableSnapshot := stable }] } := by
  rw [beginWithIsolation] at h
  split at h
  · cases h
  next begun hbegun =>
  cases h
  have hbegin : ∃ first, beginLocalTransactionWithState inventory uuid millis
      first = .ok begun := by
    split at hbegun <;> exact ⟨_, hbegun⟩
  obtain ⟨first, hbegin⟩ := hbegin
  obtain ⟨hwf, _, _, _, _, hentry, hinv⟩ := beginLocalTransactionWithState_ok hbegin
  have hid : begun.entry.localId = inventory.nextLocalTransactionId := by
    rw [hentry]
    rfl
  -- The flag is written by number, and only the new entry has that number.
  have hmap : begun.inventory.entries.map (fun e =>
      if e.localId = begun.entry.localId then { e with stableSnapshot := stable }
      else e) = inventory.entries ++ [{ begun.entry with stableSnapshot := stable }] := by
    have hsame : ∀ x ∈ inventory.entries, (if x.localId = begun.entry.localId then
          { x with stableSnapshot := stable } else x) = id x := by
      intro x hx
      have hlt := (hwf.entry x hx).id_lt
      rw [if_neg (by omega)]
      rfl
    rw [hinv, List.map_append, List.map_singleton, if_pos rfl, List.map_congr_left hsame,
      List.map_id]
  refine ⟨first, begun, hbegin, ?_⟩
  simp only [hmap]

theorem evolves_beginWithIsolation : Evolves inventory r.inventory := by
  obtain ⟨first, begun, hbegin, hinv⟩ := beginWithIsolation_ok h
  rw [hinv]
  exact evolves_begin hbegin

end

theorem evolves_apply {op : InventoryOperation}
    (hwf : WellFormed inventory) (h : op.apply inventory = .ok inventory') :
    Evolves inventory inventory' := by
  cases op
  case recover millis =>
    simp only [InventoryOperation.apply] at h
    split at h
    · cases h
    next hnone =>
    cases h
    exact evolves_applyLocalTransactionInventoryRecovery hwf hnone
  all_goals obtain ⟨r, hr, rfl⟩ := map_eq_ok_iff.mp h
  case begin | beginReadOnly => exact evolves_beginLocalTransactionWithState hr
  case beginWithIsolation => exact evolves_beginWithIsolation hr
  case prepare => exact evolves_prepareLocalTransactionDurable hwf hr
  case commit => exact evolves_commitLocalTransaction hwf hr
  case rollback => exact evolves_rollbackLocalTransaction hwf hr
  case markRollbackOnly => exact evolves_markLocalTransactionRollbackOnly hwf hr
  case archive => exact evolves_archiveLocalTransaction hwf hr
  case compact => exact evolves_compactLocalTransactionInventory hr
  case resolveLimbo => exact evolves_resolveLimboLocalTransactionWithOperatorDecision hwf hr

/-- An operation on a valid inventory never leaves one the durable store would
refuse as its next state. -/
theorem operation_accepted_by_validators (op : InventoryOperation)
    {before after : LocalTransactionInventory}
    (hvalid : validateLocalTransactionInventoryStructure before = none)
    (hok : op.apply before = .ok after) :
    validateLocalTransactionInventoryStructure after = none ∧
      validateLocalTransactionInventoryEvolution before after = none := by
  have hev := evolves_apply (validateStructure_eq_none_iff.mp hvalid) hok
  exact ⟨validateStructure_eq_none_iff.mpr hev.wfAfter, validateEvolution_eq_none_iff.mpr hev⟩

/-- Two transactions overlap and commit, the first is archived and dropped, and a
third comes and goes. -/
def compactedHistory : List InventoryOperation :=
  [.begin ⟨.transaction, engineUuid 1⟩ 1, .begin ⟨.transaction, engineUuid 2⟩ 2, .commit 1 3,
   .commit 2 4, .archive 1, .compact true 2 true, .begin ⟨.transaction, engineUuid 3⟩ 5,
   .commit 3 6]

def compactedInventory (n : Nat) : LocalTransactionInventory :=
  (runOperations makeEmptyLocalTransactionInventory (compactedHistory.take n)).toOption.getD
    makeEmptyLocalTransactionInventory

theorem second_commit_accepted :
    (compactedInventory 4).entries.map (·.commitSequence) = [1, 2] ∧
      validateLocalTransactionInventoryStructure (compactedInventory 4) = none ∧
      validateLocalTransactionInventoryEvolution (compactedInventory 3)
        (compactedInventory 4) = none :=
  ⟨by decide +kernel, operation_accepted_by_validators (.commit 2 4) (by decide +kernel)
    (by decide +kernel)⟩

/-! ## What a history keeps -/

/-- The part of `EntryEvolves` that composes. -/
structure EntryExtends (nextCommit : Nat) (old new : TransactionInventoryEntry) : Prop where
  uuid : old.uuid = new.uuid
  scope : old.identity.scope = new.identity.scope
  beginMillis : old.beginUnixEpochMillis = new.beginUnixEpochMillis
  beginId : old.beginVisibleThroughLocalTransactionId = new.beginVisibleThroughLocalTransactionId
  beginCommit : old.beginVisibleThroughCommitSequence = new.beginVisibleThroughCommitSequence
  stable : old.stableSnapshot = new.stableSnapshot
  final : isTerminalTransactionState (inventoryVisibilityState old) = true →
    inventoryVisibilityState old = inventoryVisibilityState new ∧
      old.finalUnixEpochMillis = new.finalUnixEpochMillis ∧ old.commitSequence = new.commitSequence
  commit_fresh : hasCommittedInventoryOutcome old ≠ true →
    hasCommittedInventoryOutcome new = true → nextCommit ≤ new.commitSequence

structure Extends (before after : LocalTransactionInventory) : Prop where
  wfBefore : WellFormed before
  wfAfter : WellFormed after
  nextId_le : before.nextLocalTransactionId ≤ after.nextLocalTransactionId
  nextCommit_le : before.nextCommitSequence ≤ after.nextCommitSequence
  entry : ∀ e ∈ after.entries, (∃ old ∈ before.entries, old.localId = e.localId ∧
      EntryExtends before.nextCommitSequence old e) ∨
    (before.nextLocalTransactionId ≤ e.localId ∧ (hasCommittedInventoryOutcome e = true →
        before.nextCommitSequence ≤ e.commitSequence))

theorem EntryExtends.refl (n : Nat) (e : TransactionInventoryEntry) : EntryExtends n e e :=
  ⟨rfl, rfl, rfl, rfl, rfl, rfl, fun _ => ⟨rfl, rfl, rfl⟩, fun hn h => absurd h hn⟩

theorem EntryEvolves.extends (h : EntryEvolves n old new) : EntryExtends n old new := { h with }

theorem terminal_of_committed (h : hasCommittedInventoryOutcome e = true) :
    isTerminalTransactionState (inventoryVisibilityState e) = true := by
  rw [hasCommittedInventoryOutcome_iff.mp h]
  rfl

theorem EntryExtends.trans (hn : n ≤ n') {c : TransactionInventoryEntry}
    (hab : EntryExtends n a b) (hbc : EntryExtends n' b c) : EntryExtends n a c := by
  refine ⟨hab.uuid.trans hbc.uuid, hab.scope.trans hbc.scope,
    hab.beginMillis.trans hbc.beginMillis, hab.beginId.trans hbc.beginId,
    hab.beginCommit.trans hbc.beginCommit, hab.stable.trans hbc.stable, ?_, ?_⟩
  · intro hterm
    obtain ⟨hvis, hfinal, hcs⟩ := hab.final hterm
    rw [hvis] at hterm
    obtain ⟨hvis', hfinal', hcs'⟩ := hbc.final hterm
    exact ⟨hvis.trans hvis', hfinal.trans hfinal', hcs.trans hcs'⟩
  · intro hna hc
    by_cases hb : hasCommittedInventoryOutcome b = true
    · have hge := hab.commit_fresh hna hb
      obtain ⟨_, _, hcs⟩ := hbc.final (terminal_of_committed hb)
      omega
    · have hge := hbc.commit_fresh hb hc
      omega

theorem Evolves.extends (h : Evolves before after) : Extends before after := by
  refine { h with entry := ?_ }
  intro e he
  rcases h.entry e he with ⟨old, hold, hid, hev⟩ | hnew
  · exact .inl ⟨old, hold, hid, hev.extends⟩
  · exact .inr ⟨hnew.id_ge, hnew.commit_fresh⟩

theorem Extends.refl (hwf : WellFormed inventory) : Extends inventory inventory :=
  ⟨hwf, hwf, Nat.le_refl _, Nat.le_refl _, fun e he => .inl ⟨e, he, rfl, EntryExtends.refl _ e⟩⟩

theorem Extends.trans {a b c : LocalTransactionInventory} (hab : Extends a b)
    (hbc : Extends b c) : Extends a c := by
  have hid := hab.nextId_le
  have hcommit := hab.nextCommit_le
  refine ⟨hab.wfBefore, hbc.wfAfter, Nat.le_trans hid hbc.nextId_le,
    Nat.le_trans hcommit hbc.nextCommit_le, ?_⟩
  intro e he
  rcases hbc.entry e he with ⟨mid, hmid, hmidId, hme⟩ | ⟨hge, hfresh⟩
  · rcases hab.entry mid hmid with ⟨old, hold, holdId, hom⟩ | ⟨hge, hfresh⟩
    · exact .inl ⟨old, hold, holdId.trans hmidId, hom.trans hcommit hme⟩
    · refine .inr ⟨by omega, ?_⟩
      intro hc
      by_cases hm : hasCommittedInventoryOutcome mid = true
      · have hge' := hfresh hm
        obtain ⟨_, _, hcs⟩ := hme.final (terminal_of_committed hm)
        omega
      · have hge' := hme.commit_fresh hm hc
        omega
  · refine .inr ⟨by omega, ?_⟩
    intro hc
    have hge' := hfresh hc
    omega

/-- The entry of the earlier inventory that a later one continues. -/
theorem Extends.entry_of_id (h : Extends before after) (hold : old ∈ before.entries)
    (he : e ∈ after.entries) (hid : old.localId = e.localId) :
    EntryExtends before.nextCommitSequence old e := by
  rcases h.entry e he with ⟨old', hold', hid', hext⟩ | ⟨hge, _⟩
  · have heq : old' = old := h.wfBefore.entry_unique hold' hold (hid'.trans hid.symm)
    rw [← heq]
    exact hext
  · have hlt := (h.wfBefore.entry old hold).id_lt
    omega

theorem Extends.absent (h : Extends before after) (hlt : num < before.nextLocalTransactionId)
    (habs : ∀ old ∈ before.entries, old.localId ≠ num) : ∀ e ∈ after.entries, e.localId ≠ num := by
  intro e he hid
  rcases h.entry e he with ⟨old, hold, hid', _⟩ | ⟨hge, _⟩
  · exact habs old hold (hid'.trans hid)
  · omega

theorem WellFormed.committed_of_sequence (hwf : WellFormed inventory)
    (he : e ∈ inventory.entries) (hne : e.commitSequence ≠ 0) :
    hasCommittedInventoryOutcome e = true := by
  by_contra hc
  exact hne ((hwf.entry e he).uncommitted hc)

theorem Extends.sequence_unique (h : Extends before after) (ha : a ∈ before.entries)
    (hb : b ∈ after.entries) (hne : a.commitSequence ≠ 0)
    (heq : a.commitSequence = b.commitSequence) : a.localId = b.localId := by
  have hca := h.wfBefore.committed_of_sequence ha hne
  have hcb := h.wfAfter.committed_of_sequence hb (heq ▸ hne)
  have hlt := ((h.wfBefore.entry a ha).committed hca).2
  rcases h.entry b hb with ⟨old, hold, hid, hext⟩ | ⟨_, hfresh⟩
  · by_cases hco : hasCommittedInventoryOutcome old = true
    · obtain ⟨_, _, hcs⟩ := hext.final (terminal_of_committed hco)
      rw [← hid]
      exact h.wfBefore.commits a ha old hold hca hco (by omega)
    · have hge := hext.commit_fresh hco hcb
      omega
  · have hge := hfresh hcb
    omega

/-- Between any two points of an accepted chain. -/
theorem extends_of_chain {I : Nat → LocalTransactionInventory} (hn : 0 < n) (hchain : ∀ k < n,
      validateLocalTransactionInventoryEvolution (I k) (I (k + 1)) = none)
    (hij : i ≤ j) (hj : j ≤ n) : Extends (I i) (I j) := by
  have hstep : ∀ k < n, Evolves (I k) (I (k + 1)) := fun k hk =>
    validateEvolution_eq_none_iff.mp (hchain k hk)
  have hwf : ∀ k ≤ n, WellFormed (I k) := by
    intro k hk
    by_cases hlt : k < n
    · exact (hstep k hlt).wfBefore
    · obtain rfl : k = n := by omega
      have hlast := (hstep (k - 1) (by omega)).wfAfter
      rwa [Nat.sub_add_cancel hn] at hlast
  obtain ⟨d, rfl⟩ := Nat.exists_eq_add_of_le hij
  clear hij
  induction d with
  | zero => exact Extends.refl (hwf i hj)
  | succ d ih => exact (ih (by omega)).trans (hstep (i + d) (by omega)).extends

/-- Finality over a whole history: whatever an accepted chain says of a
transaction at one point it says at every later one, and neither a number nor a
commit sequence ever changes hands, also after the transaction that held it has
been dropped. -/
theorem history_is_final {I : Nat → LocalTransactionInventory} {n : Nat} (hn : 0 < n)
    (hchain : ∀ k < n, validateLocalTransactionInventoryEvolution (I k) (I (k + 1)) = none)
    {i j : Nat} (hij : i ≤ j) (hj : j ≤ n) :
    (∀ a ∈ (I i).entries, ∀ b ∈ (I j).entries, a.localId = b.localId →
      (a.uuid = b.uuid ∧ a.identity.scope = b.identity.scope ∧
        a.beginUnixEpochMillis = b.beginUnixEpochMillis ∧ a.beginVisibleThroughLocalTransactionId =
          b.beginVisibleThroughLocalTransactionId ∧
        a.beginVisibleThroughCommitSequence = b.beginVisibleThroughCommitSequence ∧
        a.stableSnapshot = b.stableSnapshot) ∧
      ((inventoryVisibilityState a = .committed ∨ inventoryVisibilityState a = .rolledBack ∨
          inventoryVisibilityState a = .failedTerminal) →
        inventoryVisibilityState a = inventoryVisibilityState b ∧
          a.finalUnixEpochMillis = b.finalUnixEpochMillis ∧ a.commitSequence = b.commitSequence)) ∧
    (∀ num < (I i).nextLocalTransactionId, (∀ a ∈ (I i).entries, a.localId ≠ num) →
      ∀ b ∈ (I j).entries, b.localId ≠ num) ∧
    (∀ a ∈ (I i).entries, ∀ b ∈ (I j).entries, a.commitSequence ≠ 0 →
      a.commitSequence = b.commitSequence → a.localId = b.localId) := by
  have h := extends_of_chain hn hchain hij hj
  refine ⟨?_, fun num hlt habs => h.absent hlt habs,
    fun a ha b hb hne heq => h.sequence_unique ha hb hne heq⟩
  intro a ha b hb hid
  have hext := h.entry_of_id ha hb hid
  refine ⟨⟨hext.uuid, hext.scope, hext.beginMillis, hext.beginId,
    hext.beginCommit, hext.stable⟩, ?_⟩
  intro hout
  refine hext.final ?_
  rcases hout with hout | hout | hout <;> rw [hout] <;> rfl

/-- The number of the dropped transaction stays free, and the one that is left keeps
its commit sequence to itself. -/
theorem compactedHistory_final :
    (compactedInventory 6).entries.map (·.localId) = [2] ∧
    (∀ b ∈ (compactedInventory 8).entries, b.localId ≠ 1) ∧
    (∀ a ∈ (compactedInventory 4).entries, ∀ b ∈ (compactedInventory 8).entries,
      a.commitSequence ≠ 0 → a.commitSequence = b.commitSequence → a.localId = b.localId) := by
  have hchain : ∀ k < 8, validateLocalTransactionInventoryEvolution
      (compactedInventory k) (compactedInventory (k + 1)) = none := by
    decide +kernel
  have hdropped := (history_is_final (by decide) hchain (i := 6) (j := 8) (by decide) le_rfl).2.1
  have hkept := (history_is_final (by decide) hchain (i := 4) (j := 8) (by decide) le_rfl).2.2
  exact ⟨by decide +kernel, hdropped 1 (by decide +kernel) (by decide +kernel), hkept⟩

end ScratchBird.Mga
