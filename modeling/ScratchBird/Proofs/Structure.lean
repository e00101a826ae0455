import ScratchBird.Mga.Recovery
import ScratchBird.Lib.Refusal
import Mathlib.Data.List.Pairwise

/-!
# What the two validators accept

Both validators are loops with an accumulator and a dozen early exits, and
neither shape is what a proof about the inventory wants to see. This file trades
each of them, once, for a predicate: `WellFormed` for the structural walk and
`Evolves` for the comparison of two inventories. Everything about inventories
that follows is stated with the predicates.

The accumulators disappear for different reasons. The three sets of the
structural walk say that ids, UUIDs and commit sequences are distinct, and
distinctness of ids is enough to phrase the other two as injectivity: two
entries that agree on a UUID, or on a commit sequence they both committed with,
agree on the id. The map of the evolution walk loses an entry each time a later
entry claims it, but the ids of the later inventory are distinct, so no lookup
ever misses because of an earlier erasure, and what is left at the end is
exactly what the later inventory no longer holds.
-/

namespace ScratchBird.Mga

open Lib
open List hiding lookup

variable {e a b x y old new : TransactionInventoryEntry} {nextId nextCommit : Nat}
  {seen : SeenValues} {es remaining : List TransactionInventoryEntry}
  {inventory before after : LocalTransactionInventory}

theorem hasCommittedInventoryOutcome_iff :
    hasCommittedInventoryOutcome e = true ↔ inventoryVisibilityState e = .committed := by
  simp [hasCommittedInventoryOutcome]

/-! ## Structure -/

/-- The conditions on one entry that do not mention the others. -/
structure EntryWellFormed (nextId nextCommit : Nat) (e : TransactionInventoryEntry) : Prop where
  begin_lt : e.beginVisibleThroughCommitSequence < nextCommit
  origin : e.state = .archived → e.archivedFromState = .committed ∨
    e.archivedFromState = .rolledBack ∨ e.archivedFromState = .failedTerminal
  origin_none : e.state ≠ .archived → e.archivedFromState = .none
  committed : hasCommittedInventoryOutcome e = true →
    e.beginVisibleThroughCommitSequence < e.commitSequence ∧ e.commitSequence < nextCommit
  uncommitted : hasCommittedInventoryOutcome e ≠ true → e.commitSequence = 0
  identity : e.identity.valid = true
  engine : isEngineIdentityUuid e.uuid = true
  id_lt : e.localId < nextId
  state_ne : e.state ≠ .none

/-- The conditions that do: an entry against the values already seen. -/
def SeenValues.Fresh (seen : SeenValues) (e : TransactionInventoryEntry) :
    Prop :=
  (hasCommittedInventoryOutcome e = true → e.commitSequence ∉ seen.commits) ∧
    e.localId ∉ seen.locals ∧ e.uuid ∉ seen.identities

def DistinctEntries (a b : TransactionInventoryEntry) : Prop :=
  (hasCommittedInventoryOutcome a = true → hasCommittedInventoryOutcome b = true →
      a.commitSequence ≠ b.commitSequence) ∧ a.localId ≠ b.localId ∧ a.uuid ≠ b.uuid

instance : Std.Symm DistinctEntries where
  symm := by
    rintro a b ⟨hc, hl, hu⟩
    exact ⟨fun hb ha heq => hc ha hb heq.symm, Ne.symm hl, Ne.symm hu⟩

theorem scope_ne_of_valid {i : TransactionIdentity} (h : i.valid = true) : i.scope ≠ .unknown := by
  unfold TransactionIdentity.valid at h
  simp only [Bool.and_eq_true, bne_iff_ne] at h
  exact h.2

theorem validateEntryStructure_eq_none_iff :
    validateEntryStructure nextId nextCommit seen e = none ↔
      EntryWellFormed nextId nextCommit e ∧ seen.Fresh e := by
  unfold validateEntryStructure
  simp only [guard_eq_none_iff, not_and, not_or, not_not, Nat.not_le]
  constructor
  · rintro ⟨hbegin, horigin, hnone, hcs, hdup, huncom, hid, _, hlt, hlocal, huuid, hstate, _⟩
    refine ⟨⟨hbegin, ?_, hnone, ?_, huncom, hid.1, hid.2, hlt, hstate⟩, hdup, hlocal, huuid⟩
    · intro harch
      by_cases hc : e.archivedFromState = .committed
      · exact .inl hc
      by_cases hr : e.archivedFromState = .rolledBack
      · exact .inr (.inl hr)
      · exact .inr (.inr (horigin harch hc hr))
    · intro hc
      obtain ⟨_, hlt', hgt⟩ := hcs hc
      exact ⟨hgt, hlt'⟩
  · rintro ⟨hwf, hdup, hlocal, huuid⟩
    refine ⟨hwf.begin_lt, ?_, hwf.origin_none, ?_, hdup, hwf.uncommitted,
      ⟨hwf.identity, hwf.engine⟩, scope_ne_of_valid hwf.identity, hwf.id_lt,
      hlocal, huuid, hwf.state_ne, trivial⟩
    · intro harch hc hr
      rcases hwf.origin harch with h | h | h
      · exact absurd h hc
      · exact absurd h hr
      · exact h
    · intro hc
      obtain ⟨hgt, hlt'⟩ := hwf.committed hc
      exact ⟨by omega, hlt', hgt⟩

theorem fresh_add_iff : (seen.add a).Fresh b ↔ seen.Fresh b ∧ DistinctEntries a b := by
  unfold SeenValues.Fresh SeenValues.add DistinctEntries
  simp only [mem_cons, not_or]
  constructor
  · rintro ⟨hc, ⟨hl, hls⟩, hu, hus⟩
    refine ⟨⟨?_, hls, hus⟩, ?_, Ne.symm hl, Ne.symm hu⟩
    · intro hb hmem
      apply hc hb
      split
      · exact mem_cons_of_mem _ hmem
      · exact hmem
    · intro ha hb heq
      apply hc hb
      rw [if_pos ha, heq]
      exact mem_cons_self
  · rintro ⟨⟨hc, hls, hus⟩, hd, hl, hu⟩
    refine ⟨?_, ⟨Ne.symm hl, hls⟩, Ne.symm hu, hus⟩
    intro hb hmem
    split at hmem
    · next ha =>
      rcases mem_cons.mp hmem with heq | hmem
      · exact hd ha hb heq.symm
      · exact hc hb hmem
    · exact hc hb hmem

theorem validateEntriesStructure_eq_none_iff :
    validateEntriesStructure nextId nextCommit seen es = none ↔
      (∀ e ∈ es, EntryWellFormed nextId nextCommit e ∧ seen.Fresh e) ∧
        es.Pairwise DistinctEntries := by
  induction es generalizing seen with
  | nil => simp [validateEntriesStructure]
  | cons e es ih =>
    rw [validateEntriesStructure, pairwise_cons]
    constructor
    · intro h
      split at h
      · cases h
      next hhead =>
      obtain ⟨htail, hpair⟩ := ih.mp h
      refine ⟨?_, fun b hb => (fresh_add_iff.mp (htail b hb).2).2, hpair⟩
      intro b hb
      rcases mem_cons.mp hb with rfl | hb
      · exact validateEntryStructure_eq_none_iff.mp hhead
      · exact ⟨(htail b hb).1, (fresh_add_iff.mp (htail b hb).2).1⟩
    · rintro ⟨hall, hdist, hpair⟩
      have hhead := validateEntryStructure_eq_none_iff.mpr (hall e mem_cons_self)
      rw [hhead]
      refine ih.mpr ⟨?_, hpair⟩
      intro b hb
      obtain ⟨hwf, hfresh⟩ := hall b (mem_cons_of_mem _ hb)
      exact ⟨hwf, fresh_add_iff.mpr ⟨hfresh, hdist b hb⟩⟩

/-- What structural validation accepts. -/
structure WellFormed (inventory : LocalTransactionInventory) : Prop where
  nextId_ne : inventory.nextLocalTransactionId ≠ 0
  nextCommit_ne : inventory.nextCommitSequence ≠ 0
  entry : ∀ e ∈ inventory.entries, EntryWellFormed inventory.nextLocalTransactionId
      inventory.nextCommitSequence e
  localIds : (inventory.entries.map (·.localId)).Nodup
  uuids : ∀ a ∈ inventory.entries, ∀ b ∈ inventory.entries, a.uuid = b.uuid → a.localId = b.localId
  commits : ∀ a ∈ inventory.entries, ∀ b ∈ inventory.entries,
    hasCommittedInventoryOutcome a = true → hasCommittedInventoryOutcome b = true →
    a.commitSequence = b.commitSequence → a.localId = b.localId

theorem WellFormed.entry_unique (hwf : WellFormed inventory) (hx : x ∈ inventory.entries)
    (hy : y ∈ inventory.entries) (hid : x.localId = y.localId) : x = y :=
  List.inj_on_of_nodup_map hwf.localIds hx hy hid

theorem pairwise_distinctEntries_iff :
    es.Pairwise DistinctEntries ↔ (es.map (·.localId)).Nodup ∧
      (∀ a ∈ es, ∀ b ∈ es, a.uuid = b.uuid → a.localId = b.localId) ∧
      (∀ a ∈ es, ∀ b ∈ es, hasCommittedInventoryOutcome a = true →
        hasCommittedInventoryOutcome b = true →
        a.commitSequence = b.commitSequence → a.localId = b.localId) := by
  constructor
  · intro h
    have hall : ∀ a ∈ es, ∀ b ∈ es, a = b ∨ DistinctEntries a b := by
      intro a ha b hb
      by_cases hab : a = b
      · exact .inl hab
      · exact .inr (h.forall ha hb hab)
    refine ⟨?_, ?_, ?_⟩
    · rw [List.Nodup, pairwise_map]
      exact h.imp fun hd => hd.2.1
    · intro a ha b hb heq
      rcases hall a ha b hb with rfl | hd
      · rfl
      · exact absurd heq hd.2.2
    · intro a ha b hb hca hcb heq
      rcases hall a ha b hb with rfl | hd
      · rfl
      · exact absurd heq (hd.1 hca hcb)
  · rintro ⟨hids, huuids, hcommits⟩
    refine (List.Nodup.of_map _ hids).pairwise_of_forall_ne ?_
    intro a ha b hb hne
    have hid : a.localId ≠ b.localId := fun heq => hne (List.inj_on_of_nodup_map hids ha hb heq)
    exact ⟨fun hca hcb heq => hid (hcommits a ha b hb hca hcb heq), hid,
      fun heq => hid (huuids a ha b hb heq)⟩

theorem fresh_empty (e : TransactionInventoryEntry) : SeenValues.Fresh {} e := by
  simp [SeenValues.Fresh]

theorem validateStructure_eq_none_iff :
    validateLocalTransactionInventoryStructure inventory = none ↔ WellFormed inventory := by
  unfold validateLocalTransactionInventoryStructure
  rw [guard_eq_none_iff, guard_eq_none_iff,
    validateEntriesStructure_eq_none_iff, pairwise_distinctEntries_iff]
  constructor
  · rintro ⟨hid, hcommit, hall, hids, huuids, hcommits⟩
    exact ⟨hid, hcommit, fun e he => (hall e he).1, hids, huuids, hcommits⟩
  · intro h
    exact ⟨h.nextId_ne, h.nextCommit_ne,
      fun e he => ⟨h.entry e he, fresh_empty e⟩, h.localIds, h.uuids, h.commits⟩

/-! ## Evolution -/

/-- What the evolution walk demands of an entry that was there before. -/
structure EntryEvolves (nextCommit : Nat) (old new : TransactionInventoryEntry) : Prop where
  uuid : old.uuid = new.uuid
  scope : old.identity.scope = new.identity.scope
  beginMillis : old.beginUnixEpochMillis = new.beginUnixEpochMillis
  beginId : old.beginVisibleThroughLocalTransactionId = new.beginVisibleThroughLocalTransactionId
  beginCommit : old.beginVisibleThroughCommitSequence = new.beginVisibleThroughCommitSequence
  stable : old.stableSnapshot = new.stableSnapshot
  required : old.evidenceRecordRequired = true → new.evidenceRecordRequired = true
  written : old.evidenceRecordWritten = true → new.evidenceRecordWritten = true
  final : isTerminalTransactionState (inventoryVisibilityState old) = true →
    inventoryVisibilityState old = inventoryVisibilityState new ∧
      old.finalUnixEpochMillis = new.finalUnixEpochMillis ∧ old.commitSequence = new.commitSequence
  reach : stateReachable old.state new.state = true
  archive : new.state = .archived → old.state ≠ .archived →
    stateReachable old.state (inventoryVisibilityState new) = true
  commit_fresh : hasCommittedInventoryOutcome old ≠ true →
    hasCommittedInventoryOutcome new = true → nextCommit ≤ new.commitSequence

/-- What it demands of one that was not. -/
structure NewEntry (before : LocalTransactionInventory) (e : TransactionInventoryEntry) : Prop where
  id_ge : before.nextLocalTransactionId ≤ e.localId
  uuid_fresh : ∀ old ∈ before.entries, old.uuid ≠ e.uuid
  commit_fresh : hasCommittedInventoryOutcome e = true →
    before.nextCommitSequence ≤ e.commitSequence

/-- The outcomes an entry may be dropped with. -/
def Resolved (e : TransactionInventoryEntry) : Prop :=
  inventoryVisibilityState e = .committed ∨ inventoryVisibilityState e = .rolledBack

theorem validateEntryEvolution_eq_none_iff :
    validateEntryEvolution before old new = none ↔
      EntryEvolves before.nextCommitSequence old new := by
  unfold validateEntryEvolution
  simp only [guard_eq_none_iff, not_and, not_or, not_not, Nat.not_lt]
  constructor
  · rintro ⟨⟨huuid, hscope⟩, ⟨hmillis, hid, hcommit, hstable⟩, ⟨hreq, hwr⟩,
      hfinal, ⟨hreach, harch⟩, hfresh, _⟩
    exact ⟨huuid, hscope, hmillis, hid, hcommit, hstable, hreq, hwr, hfinal, hreach, harch, hfresh⟩
  · intro h
    exact ⟨⟨h.uuid, h.scope⟩, ⟨h.beginMillis, h.beginId, h.beginCommit,
      h.stable⟩, ⟨h.required, h.written⟩, h.final, ⟨h.reach, h.archive⟩, h.commit_fresh, trivial⟩

theorem validateNewEntry_eq_none_iff : validateNewEntry before e = none ↔ NewEntry before e := by
  unfold validateNewEntry
  simp only [guard_eq_none_iff, not_and, Nat.not_lt, mem_map, not_exists]
  constructor
  · rintro ⟨hid, huuid, hcommit, _⟩
    exact ⟨hid, huuid, hcommit⟩
  · intro h
    exact ⟨h.id_ge, h.uuid_fresh, h.commit_fresh, trivial⟩

/-- The walk, for any map of unclaimed entries. Distinct ids on the later side
are what makes an erasure invisible to the rest of the walk. -/
theorem validateInventoryEvolutionValues_eq_none_iff (hrem : (remaining.map (·.localId)).Nodup)
    (hes : (es.map (·.localId)).Nodup) :
    validateInventoryEvolutionValues before remaining es = none ↔ (∀ e ∈ es,
        (∃ old ∈ remaining, old.localId = e.localId ∧
          EntryEvolves before.nextCommitSequence old e) ∨
        ((∀ old ∈ remaining, old.localId ≠ e.localId) ∧ NewEntry before e)) ∧
      (∀ old ∈ remaining, (∀ e ∈ es, e.localId ≠ old.localId) → Resolved old) := by
  induction es generalizing remaining with
  | nil =>
    rw [validateInventoryEvolutionValues, guard_eq_none_iff]
    simp only [any_eq_true, not_exists, not_and, Bool.and_eq_true,
      bne_iff_ne, not_not, and_true, not_mem_nil, false_implies,
      implies_true, true_and, forall_const, Resolved]
    refine forall₂_congr fun e _ => ?_
    rw [or_iff_not_imp_left]
  | cons x es ih =>
    rw [map_cons, nodup_cons] at hes
    obtain ⟨hx, hes⟩ := hes
    have hxes : ∀ e ∈ es, e.localId ≠ x.localId := fun e he heq => hx (heq ▸ mem_map_of_mem he)
    rw [validateInventoryEvolutionValues]
    cases hfind : lookup TransactionInventoryEntry.localId x.localId remaining with
    | none =>
      have habs := lookup_eq_none_iff.mp hfind
      have hfirst : ((∃ old ∈ remaining, old.localId = x.localId ∧
          EntryEvolves before.nextCommitSequence old x) ∨
          (∀ old ∈ remaining, old.localId ≠ x.localId) ∧ NewEntry before x) ↔
          NewEntry before x := by
        refine ⟨?_, fun h => .inr ⟨habs, h⟩⟩
        rintro (⟨old, hold, heq, -⟩ | ⟨-, h⟩)
        · exact absurd heq (habs old hold)
        · exact h
      have hdrop : (∀ old ∈ remaining, (∀ e ∈ x :: es, e.localId ≠ old.localId) → Resolved old) ↔
          ∀ old ∈ remaining, (∀ e ∈ es, e.localId ≠ old.localId) → Resolved old := by
        refine forall₂_congr fun old hold => ?_
        rw [forall_mem_cons, and_iff_right (Ne.symm (habs old hold))]
      rw [forall_mem_cons, hfirst, hdrop, ← validateNewEntry_eq_none_iff]
      simp only
      split <;> simp [*]
    | some old =>
      have hold := mem_of_lookup hfind
      have hkey := key_of_lookup hfind
      have hrem' : ((remaining.filter fun e =>
          decide (e.localId ≠ old.localId)).map (·.localId)).Nodup :=
        hrem.sublist (List.filter_sublist.map _)
      have hfirst : ((∃ o ∈ remaining, o.localId = x.localId ∧
          EntryEvolves before.nextCommitSequence o x) ∨
          (∀ o ∈ remaining, o.localId ≠ x.localId) ∧ NewEntry before x) ↔
          EntryEvolves before.nextCommitSequence old x := by
        refine ⟨?_, fun h => .inl ⟨old, hold, hkey, h⟩⟩
        rintro (⟨o, ho, heq, h⟩ | ⟨habs, -⟩)
        · rwa [List.inj_on_of_nodup_map hrem hold ho (hkey.trans heq.symm)]
        · exact absurd hkey (habs old hold)
      rw [forall_mem_cons, hfirst, ← validateEntryEvolution_eq_none_iff]
      simp only
      split
      · simp [*]
      next hev =>
      rw [and_iff_right hev, ih hrem' hes]
      simp only [mem_filter, decide_eq_true_eq, hkey, forall_mem_cons, and_imp]
      refine and_congr (forall₂_congr fun e he => ?_) (forall₂_congr fun o ho => ?_)
      · have hother : ∀ o : TransactionInventoryEntry, o.localId = e.localId →
            o.localId ≠ x.localId := fun o heq => heq ▸ hxes e he
        constructor
        · rintro (⟨o, ⟨ho, -⟩, h⟩ | ⟨h, hnew⟩)
          · exact .inl ⟨o, ho, h⟩
          · exact .inr ⟨fun o ho heq => h o ho (hother o heq) heq, hnew⟩
        · rintro (⟨o, ho, heq, h⟩ | ⟨h, hnew⟩)
          · exact .inl ⟨o, ⟨ho, hother o heq⟩, heq, h⟩
          · exact .inr ⟨fun o ho _ => h o ho, hnew⟩
      · rw [ne_comm]

/-- What evolution validation accepts. -/
structure Evolves (before after : LocalTransactionInventory) : Prop where
  wfBefore : WellFormed before
  wfAfter : WellFormed after
  nextId_le : before.nextLocalTransactionId ≤ after.nextLocalTransactionId
  nextCommit_le : before.nextCommitSequence ≤ after.nextCommitSequence
  entry : ∀ e ∈ after.entries, (∃ old ∈ before.entries, old.localId = e.localId ∧
      EntryEvolves before.nextCommitSequence old e) ∨ NewEntry before e
  removed : ∀ old ∈ before.entries, (∀ e ∈ after.entries, e.localId ≠ old.localId) → Resolved old

theorem NewEntry.absent (hwf : WellFormed before) (h : NewEntry before e) :
    ∀ old ∈ before.entries, old.localId ≠ e.localId := by
  intro old hold heq
  have hlt := (hwf.entry old hold).id_lt
  have hge := h.id_ge
  omega

theorem validateEvolution_eq_none_iff :
    validateLocalTransactionInventoryEvolution before after = none ↔ Evolves before after := by
  unfold validateLocalTransactionInventoryEvolution
  constructor
  · intro h
    split at h
    · cases h
    next hb =>
    split at h
    · cases h
    next ha =>
    obtain ⟨hcount, hwalk⟩ := guard_eq_none_iff.mp h
    have hwfb := validateStructure_eq_none_iff.mp hb
    have hwfa := validateStructure_eq_none_iff.mp ha
    obtain ⟨hall, hdrop⟩ := (validateInventoryEvolutionValues_eq_none_iff
      hwfb.localIds hwfa.localIds).mp hwalk
    refine ⟨hwfb, hwfa, by omega, by omega, ?_, hdrop⟩
    intro e he
    exact (hall e he).imp id (·.2)
  · intro h
    rw [validateStructure_eq_none_iff.mpr h.wfBefore, validateStructure_eq_none_iff.mpr h.wfAfter]
    refine guard_eq_none_iff.mpr ⟨?_, ?_⟩
    · have := h.nextId_le
      have := h.nextCommit_le
      omega
    · refine (validateInventoryEvolutionValues_eq_none_iff
        h.wfBefore.localIds h.wfAfter.localIds).mpr ⟨?_, h.removed⟩
      intro e he
      exact (h.entry e he).imp id fun hnew => ⟨hnew.absent h.wfBefore, hnew⟩

end ScratchBird.Mga
