import ScratchBird.Proofs.Structure

/-!
# Every operation evolves the inventory

The validators were written apart from the operations, and a store that
publishes an inventory runs them on what an operation produced. So each
operation has to agree with a validator it never calls: a valid inventory in, a
valid inventory out, and the pair accepted as an evolution.

Nothing an operation does is exotic. It changes one entry in place, or appends
one, or drops some, or, in recovery, visits all of them. For the first and the
last the argument is the same and is made once, in `evolves_of_pointwise`: the
ids stay where they were, each entry either is untouched or makes a legal move,
and a commit sequence at or above the old counter is held by one entry only.
What remains per operation is to say which move it makes, and all but two of
the moves are of one kind. `Advances` is that kind: a transaction that had no
outcome yet takes a step along the table, and if the step is a commit it takes
a fresh sequence. The two others are archiving, which keeps the outcome, and
the rollback-only mark, which touches nothing the validators read.
-/

namespace ScratchBird.Mga

open Lib List

variable {inventory : LocalTransactionInventory} {e e' x : TransactionInventoryEntry}
  {nextId nextCommit n n' num millis : Nat} {first s t next : TransactionState}
  {policy : LocalPreparePolicy} {uuid : TypedUuid} {r : TransactionInventoryResult}

/-! ## Outcomes -/

theorem inventoryVisibilityState_of_not_archived (hs : e.state ≠ .archived)
    (ho : e.archivedFromState = .none) : inventoryVisibilityState e = e.state := by
  rw [inventoryVisibilityState, if_pos hs, if_pos ho]

theorem inventoryVisibilityState_archived (hs : e.state = .archived)
    (ho : e.archivedFromState = .committed ∨ e.archivedFromState = .rolledBack ∨
      e.archivedFromState = .failedTerminal) :
    inventoryVisibilityState e = e.archivedFromState := by
  rw [inventoryVisibilityState, if_neg (not_not_intro hs)]
  rcases ho with ho | ho | ho <;> rw [ho]

theorem ne_of_not_terminal (hs : isTerminalTransactionState s = false)
    (ht : isTerminalTransactionState t = true) : s ≠ t := by
  rintro rfl
  rw [hs] at ht
  cases ht

theorem EntryWellFormed.outcome_of_not_terminal (hwf : EntryWellFormed nextId nextCommit e)
    (hlive : isTerminalTransactionState e.state = false) :
    inventoryVisibilityState e = e.state := by
  have hs : e.state ≠ .archived := ne_of_not_terminal hlive rfl
  exact inventoryVisibilityState_of_not_archived hs (hwf.origin_none hs)

/-! ## Moves -/

theorem localId_congr (h : e'.identity = e.identity) : e'.localId = e.localId := by
  rw [TransactionInventoryEntry.localId, h, TransactionInventoryEntry.localId]

theorem uuid_congr (h : e'.identity = e.identity) : e'.uuid = e.uuid := by
  rw [TransactionInventoryEntry.uuid, h, TransactionInventoryEntry.uuid]

theorem EntryEvolves.refl (n : Nat) (e : TransactionInventoryEntry) : EntryEvolves n e e where
  uuid := rfl
  scope := rfl
  beginMillis := rfl
  beginId := rfl
  beginCommit := rfl
  stable := rfl
  required := id
  written := id
  final := fun _ => ⟨rfl, rfl, rfl⟩
  reach := stateReachable_refl _
  archive := fun h hne => absurd h hne
  commit_fresh := fun hn h => absurd h hn

/-- A transaction without an outcome takes a step: the fields fixed at begin
stay, evidence is not lost, and a commit sequence appears with the commit and
at or above `n`. -/
structure Advances (n : Nat) (e e' : TransactionInventoryEntry) : Prop where
  identity : e'.identity = e.identity
  origin : e'.archivedFromState = e.archivedFromState
  beginMillis : e'.beginUnixEpochMillis = e.beginUnixEpochMillis
  beginId : e'.beginVisibleThroughLocalTransactionId = e.beginVisibleThroughLocalTransactionId
  beginCommit : e'.beginVisibleThroughCommitSequence = e.beginVisibleThroughCommitSequence
  stable : e'.stableSnapshot = e.stableSnapshot
  required : e.evidenceRecordRequired = true → e'.evidenceRecordRequired = true
  written : e.evidenceRecordWritten = true → e'.evidenceRecordWritten = true
  live : isTerminalTransactionState e.state = false
  reach : stateReachable e.state e'.state = true
  state_ne : e'.state ≠ .none
  not_archived : e'.state ≠ .archived
  commit : e'.state = .committed → n ≤ e'.commitSequence
  no_commit : e'.state ≠ .committed → e'.commitSequence = e.commitSequence

section

variable (h : Advances n e e')
include h

theorem Advances.outcome (hwf : EntryWellFormed nextId nextCommit e) :
    inventoryVisibilityState e' = e'.state := by
  have hs : e.state ≠ .archived := ne_of_not_terminal h.live rfl
  refine inventoryVisibilityState_of_not_archived h.not_archived ?_
  rw [h.origin, hwf.origin_none hs]

theorem Advances.commitSequence_eq_zero
    (hwf : EntryWellFormed nextId nextCommit e) : e.commitSequence = 0 := by
  refine hwf.uncommitted ?_
  rw [Ne, hasCommittedInventoryOutcome_iff, hwf.outcome_of_not_terminal h.live]
  exact ne_of_not_terminal h.live rfl

theorem Advances.wellFormed (hwf : EntryWellFormed nextId n e)
    (hn : n ≤ n') (hlt : e'.state = .committed → e'.commitSequence < n') :
    EntryWellFormed nextId n' e' := by
  have hs : e.state ≠ .archived := ne_of_not_terminal h.live rfl
  refine ⟨?_, ?_, ?_, ?_, ?_, ?_, ?_, ?_, h.state_ne⟩
  · rw [h.beginCommit]
    exact Nat.lt_of_lt_of_le hwf.begin_lt hn
  · intro harch
    exact absurd harch h.not_archived
  · intro _
    rw [h.origin, hwf.origin_none hs]
  · intro hc
    rw [hasCommittedInventoryOutcome_iff, h.outcome hwf] at hc
    have hbegin := hwf.begin_lt
    have hge := h.commit hc
    rw [h.beginCommit]
    exact ⟨by omega, hlt hc⟩
  · intro hc
    rw [Ne, hasCommittedInventoryOutcome_iff, h.outcome hwf] at hc
    rw [h.no_commit hc, h.commitSequence_eq_zero hwf]
  · rw [h.identity]
    exact hwf.identity
  · rw [uuid_congr h.identity]
    exact hwf.engine
  · rw [localId_congr h.identity]
    exact hwf.id_lt

theorem Advances.evolves (hwf : EntryWellFormed nextId nextCommit e) : EntryEvolves n e e' := by
  have hold := hwf.outcome_of_not_terminal h.live
  refine ⟨(uuid_congr h.identity).symm, ?_, h.beginMillis.symm, h.beginId.symm,
    h.beginCommit.symm, h.stable.symm, h.required, h.written, ?_, h.reach, ?_, ?_⟩
  · rw [h.identity]
  · intro hterm
    rw [hold, h.live] at hterm
    cases hterm
  · intro harch
    exact absurd harch h.not_archived
  · intro _ hc
    rw [hasCommittedInventoryOutcome_iff, h.outcome hwf] at hc
    exact h.commit hc

end

/-! ## Assembling an evolution -/

/-- Entries changed in place. The last hypothesis is the only one that relates
two entries: a sequence the old counter had not reached belongs to one id. -/
theorem evolves_of_pointwise {es : List TransactionInventoryEntry}
    (hwf : WellFormed inventory) (hn : inventory.nextCommitSequence ≤ n)
    (hids : es.map (·.localId) = inventory.entries.map (·.localId))
    (hent : ∀ x ∈ es, ∃ old ∈ inventory.entries, x.identity = old.identity ∧
      EntryWellFormed inventory.nextLocalTransactionId n x ∧
      EntryEvolves inventory.nextCommitSequence old x) (hfresh : ∀ a ∈ es, ∀ b ∈ es,
      inventory.nextCommitSequence ≤ a.commitSequence →
      a.commitSequence = b.commitSequence → a.localId = b.localId) :
    Evolves inventory { inventory with nextCommitSequence := n, entries := es } := by
  have hcommitted : ∀ x ∈ es, hasCommittedInventoryOutcome x = true →
      inventory.nextCommitSequence ≤ x.commitSequence ∨
        ∃ old ∈ inventory.entries, old.localId = x.localId ∧
          hasCommittedInventoryOutcome old = true ∧ old.commitSequence = x.commitSequence := by
    intro x hx hc
    obtain ⟨old, hold, hid, _, hev⟩ := hent x hx
    by_cases hoc : hasCommittedInventoryOutcome old = true
    · refine .inr ⟨old, hold, (localId_congr hid).symm, hoc, (hev.final ?_).2.2⟩
      rw [hasCommittedInventoryOutcome_iff.mp hoc]
      decide
    · exact .inl (hev.commit_fresh hoc hc)
  refine ⟨hwf, ⟨hwf.nextId_ne, ?_, ?_, ?_, ?_, ?_⟩, Nat.le_refl _, hn, ?_, ?_⟩
  · have hne := hwf.nextCommit_ne
    show n ≠ 0
    omega
  · intro x hx
    obtain ⟨_, _, _, hx, _⟩ := hent x hx
    exact hx
  · rw [hids]
    exact hwf.localIds
  · intro a ha b hb heq
    obtain ⟨oa, hoa, hida, _, heva⟩ := hent a ha
    obtain ⟨ob, hob, hidb, _, hevb⟩ := hent b hb
    rw [← heva.uuid, ← hevb.uuid] at heq
    rw [localId_congr hida, localId_congr hidb]
    exact hwf.uuids oa hoa ob hob heq
  · intro a ha b hb hca hcb heq
    rcases hcommitted a ha hca with hge | ⟨oa, hoa, hida, hoca, hcsa⟩
    · exact hfresh a ha b hb hge heq
    rcases hcommitted b hb hcb with hge | ⟨ob, hob, hidb, hocb, hcsb⟩
    · exact (hfresh b hb a ha hge heq.symm).symm
    rw [← hida, ← hidb]
    exact hwf.commits oa hoa ob hob hoca hocb (by omega)
  · intro x hx
    obtain ⟨old, hold, hid, _, hev⟩ := hent x hx
    exact .inl ⟨old, hold, (localId_congr hid).symm, hev⟩
  · intro old hold hne
    have hmem : old.localId ∈ es.map (·.localId) := by
      rw [hids]
      exact mem_map_of_mem hold
    obtain ⟨x, hx, hxid⟩ := mem_map.mp hmem
    exact absurd hxid (hne x hx)

theorem EntryWellFormed.mono (hn : n ≤ n') (hwf : EntryWellFormed nextId n e) :
    EntryWellFormed nextId n' e := by
  refine { hwf with begin_lt := Nat.lt_of_lt_of_le hwf.begin_lt hn, committed := ?_ }
  intro hc
  obtain ⟨hgt, hlt⟩ := hwf.committed hc
  exact ⟨hgt, Nat.lt_of_lt_of_le hlt hn⟩

theorem EntryWellFormed.commitSequence_lt (hn : n ≠ 0)
    (hwf : EntryWellFormed nextId n e) : e.commitSequence < n := by
  by_cases hc : hasCommittedInventoryOutcome e = true
  · exact (hwf.committed hc).2
  · rw [hwf.uncommitted hc]
    omega

theorem findEntry_mem (h : findEntry inventory num = some e) :
    e ∈ inventory.entries ∧ e.localId = num := ⟨mem_of_lookup h, key_of_lookup h⟩

theorem putEntry_putEntry (h : e'.localId = e.localId) :
    putEntry (putEntry inventory e) e' = putEntry inventory e' := by
  unfold putEntry
  simp only [h, modify_modify rfl]

theorem findEntry_putEntry (h : findEntry inventory num = some e) (hid : e'.localId = num) :
    findEntry (putEntry inventory e') num = some e' := by
  subst hid
  exact lookup_modify_self h rfl

theorem mem_putEntry_iff (hwf : WellFormed inventory)
    (he : e ∈ inventory.entries) (hid : e'.localId = e.localId) :
    x ∈ (putEntry inventory e').entries ↔
      x ∈ inventory.entries ∧ x.localId ≠ e.localId ∨ x = e' := by
  refine (mem_modify_iff hwf.localIds).trans ?_
  rw [hid]
  exact or_congr_right ⟨fun ⟨_, _, _, h⟩ => h, fun h => ⟨e, he, rfl, h⟩⟩

/-- One entry changed in place. -/
theorem evolves_putEntry (hwf : WellFormed inventory)
    (hfind : findEntry inventory num = some e) (hn : inventory.nextCommitSequence ≤ n)
    (hid : e'.identity = e.identity) (hent : EntryWellFormed inventory.nextLocalTransactionId n e')
    (hev : EntryEvolves inventory.nextCommitSequence e e') :
    Evolves inventory { putEntry inventory e' with nextCommitSequence := n } := by
  obtain ⟨he, _⟩ := findEntry_mem hfind
  have hmem : ∀ x, x ∈ (putEntry inventory e').entries ↔ _ :=
    fun _ => mem_putEntry_iff hwf he (localId_congr hid)
  refine evolves_of_pointwise hwf hn ?_ ?_ ?_
  · refine map_modify ?_
    intro a _ ha
    exact ha.symm
  · intro x hx
    rcases (hmem x).mp hx with ⟨hx, _⟩ | rfl
    · exact ⟨x, hx, rfl, (hwf.entry x hx).mono hn, EntryEvolves.refl _ x⟩
    · exact ⟨e, he, hid, hent, hev⟩
  · intro a ha b hb hge heq
    have hold : ∀ x ∈ inventory.entries,
        x.commitSequence < inventory.nextCommitSequence := fun x hx =>
      (hwf.entry x hx).commitSequence_lt hwf.nextCommit_ne
    rcases (hmem a).mp ha with ⟨ha, _⟩ | rfl
    · have := hold a ha
      omega
    rcases (hmem b).mp hb with ⟨hb, _⟩ | rfl
    · have := hold b hb
      omega
    rfl

/-! ## What each operation does

One lemma per operation, reading its success backwards. Later files use these
and never unfold an operation again. -/

theorem transitionOrFail_ok (h : transitionOrFail e next = .ok e') :
    Edge e.state next ∧ e' = { e with state := next } := by
  unfold transitionOrFail at h
  split at h
  · cases h
  · next t hcheck =>
    cases h
    exact ⟨edge_of_check hcheck, rfl⟩

theorem beginLocalTransactionWithState_ok
    (h : beginLocalTransactionWithState inventory uuid millis first = .ok r) :
    WellFormed inventory ∧ (∀ x ∈ inventory.entries, x.uuid ≠ uuid.value) ∧ Edge .created first ∧
    TransactionIdentity.valid ⟨inventory.nextLocalTransactionId, uuid, .localNode⟩ = true ∧
    isEngineIdentityUuid uuid.value = true ∧ r.entry =
      { identity := ⟨inventory.nextLocalTransactionId, uuid, .localNode⟩
        state := first
        beginUnixEpochMillis := millis
        beginVisibleThroughLocalTransactionId := inventory.nextLocalTransactionId - 1
        beginVisibleThroughCommitSequence := inventory.nextCommitSequence - 1 } ∧
    r.inventory =
      { inventory with
        nextLocalTransactionId := inventory.nextLocalTransactionId + 1
        entries := inventory.entries ++ [r.entry] } := by
  unfold beginLocalTransactionWithState at h
  simp only [inventoryError, guard_eq_ok_iff] at h
  obtain ⟨_, h⟩ := h
  split at h
  · cases h
  next hvalid =>
  simp only [guard_eq_ok_iff, bind_eq_ok_iff] at h
  obtain ⟨_, hdup, identity, hident, e₁, hcreated, e₂, hactive, h⟩ := h
  obtain ⟨rfl, hidValid, hengine⟩ := validateTransactionIdentity_ok hident
  obtain ⟨_, rfl⟩ := transitionOrFail_ok hcreated
  obtain ⟨hedge, rfl⟩ := transitionOrFail_ok hactive
  cases h
  refine ⟨validateStructure_eq_none_iff.mp hvalid, ?_, hedge, hidValid, hengine, rfl, rfl⟩
  intro x hx heq
  apply hdup
  unfold containsTransactionUuid
  rw [any_eq_true]
  exact ⟨x, hx, by simp [heq]⟩

theorem lookupLocalTransaction_ok (h : lookupLocalTransaction inventory num = .ok e) :
    e ∈ inventory.entries ∧ e.localId = num ∧ localIdValid num = true := by
  rw [lookupLocalTransaction, inventoryError, guard_eq_ok_iff] at h
  obtain ⟨hvalid, h⟩ := h
  split at h
  next hfind =>
    cases h
    obtain ⟨hmem, hid⟩ := findEntry_mem hfind
    exact ⟨hmem, hid, by simpa using hvalid⟩
  · cases h

theorem EntryWellFormed.localId_valid (h : EntryWellFormed nextId nextCommit e) :
    localIdValid e.localId = true := by
  have hidentity := h.identity
  rw [TransactionIdentity.valid] at hidentity
  simp only [Bool.and_eq_true] at hidentity
  exact hidentity.1.1.1

theorem lookupLocalTransaction_of_mem (hwf : WellFormed inventory) (he : e ∈ inventory.entries) :
    lookupLocalTransaction inventory e.localId = .ok e := by
  have hvalid := (hwf.entry e he).localId_valid
  have hfind : findEntry inventory e.localId = some e :=
    (lookup_eq_some_iff hwf.localIds).mpr ⟨he, rfl⟩
  rw [lookupLocalTransaction, hvalid, hfind]
  rfl

theorem prepareLocalTransaction_ok (h : prepareLocalTransaction inventory num = .ok r) :
    ∃ e, findEntry inventory num = some e ∧ Edge e.state .preparing ∧
      r.entry = { e with state := .prepared } ∧ r.inventory = putEntry inventory r.entry := by
  unfold prepareLocalTransaction at h
  simp only [inventoryError, guard_eq_ok_iff] at h
  obtain ⟨_, h⟩ := h
  split at h
  · cases h
  next e hfind =>
  simp only [guard_eq_ok_iff, bind_eq_ok_iff] at h
  obtain ⟨_, e₁, hpreparing, e₂, hprepared, h⟩ := h
  obtain ⟨hedge, rfl⟩ := transitionOrFail_ok hpreparing
  obtain ⟨_, rfl⟩ := transitionOrFail_ok hprepared
  cases h
  exact ⟨e, hfind, hedge, rfl, rfl⟩

theorem prepareActiveEntry_ok (h : prepareActiveEntry e = .ok e') :
    stateReachable e.state e'.state = true ∧ (isTerminalTransactionState e'.state = false →
        isTerminalTransactionState e.state = false) ∧ e' = { e with state := e'.state } := by
  unfold prepareActiveEntry at h
  split at h
  · obtain ⟨e₀, hpreparing, hprepared⟩ := bind_eq_ok_iff.mp h
    obtain ⟨hedge₀, rfl⟩ := transitionOrFail_ok hpreparing
    obtain ⟨hedge₁, rfl⟩ := transitionOrFail_ok hprepared
    refine ⟨stateReachable_trans (stateReachable_of_edge hedge₀)
      (stateReachable_of_edge hedge₁), ?_, rfl⟩
    intro _
    exact not_terminal_of_edge hedge₀ nofun
  · cases h
    exact ⟨stateReachable_refl _, id, rfl⟩

/-- Durable prepare is either a rollback, when local prepare is disabled, or a
prepare that may raise the two evidence flags on the prepared entry. -/
theorem prepareLocalTransactionDurable_ok
    (h : prepareLocalTransactionDurable inventory num policy = .ok r) :
    rollbackLocalTransaction inventory num 0 = .ok r ∨
    ∃ e req written, findEntry inventory num = some e ∧ Edge e.state .preparing ∧
      (e.evidenceRecordRequired = true → req = true) ∧
      (e.evidenceRecordWritten = true → written = true) ∧ r.entry =
        { e with
          state := .prepared
          evidenceRecordRequired := req
          evidenceRecordWritten := written } ∧
      r.inventory = putEntry inventory r.entry := by
  unfold prepareLocalTransactionDurable at h
  split at h
  · exact .inl h
  refine .inr ?_
  obtain ⟨p, hp, h⟩ := bind_eq_ok_iff.mp h
  obtain ⟨e, hfind, hedge, hentry, hinv⟩ := prepareLocalTransaction_ok hp
  split at h
  · -- The entry just written is the one the evidence loop finds.
    have hagain : findEntry p.inventory num = some p.entry := by
      rw [hinv]
      refine findEntry_putEntry hfind ?_
      rw [hentry]
      exact (findEntry_mem hfind).2
    rw [hagain] at h
    cases h
    refine ⟨e, true, true, hfind, hedge, fun _ => rfl, fun _ => rfl, ?_, ?_⟩
    · rw [hentry]
    · rw [hinv]
      exact putEntry_putEntry rfl
  · cases h
    exact ⟨e, e.evidenceRecordRequired, e.evidenceRecordWritten, hfind, hedge, id, id, hentry, hinv⟩

theorem commitLocalTransaction_ok (h : commitLocalTransaction inventory num millis = .ok r) :
    ∃ e, findEntry inventory num = some e ∧ isTerminalTransactionState e.state = false ∧
      stateReachable e.state .committed = true ∧ e.rollbackOnly = false ∧ r.entry =
        { e with
          state := .committed
          finalUnixEpochMillis := millis
          commitSequence := inventory.nextCommitSequence
          evidenceRecordWritten := true } ∧
      r.inventory =
        { putEntry inventory r.entry with
          nextCommitSequence := inventory.nextCommitSequence + 1 } := by
  unfold commitLocalTransaction at h
  split at h
  · cases h
  simp only [inventoryError, guard_eq_ok_iff] at h
  obtain ⟨_, _, h⟩ := h
  split at h
  · cases h
  next e hfind =>
  simp only [guard_eq_ok_iff, bind_eq_ok_iff] at h
  obtain ⟨_, honly, e₁, hstart, e₂, hcommitting, e₃, hcommitted, h⟩ := h
  obtain ⟨hreach, hlive, heq⟩ := prepareActiveEntry_ok hstart
  obtain ⟨hedge₂, rfl⟩ := transitionOrFail_ok hcommitting
  obtain ⟨hedge₃, rfl⟩ := transitionOrFail_ok hcommitted
  cases h
  refine ⟨e, hfind, hlive (not_terminal_of_edge hedge₂ nofun),
    stateReachable_trans hreach (stateReachable_trans
      (stateReachable_of_edge hedge₂) (stateReachable_of_edge hedge₃)),
    by simpa using honly, ?_, rfl⟩
  rw [heq]

theorem rollbackLocalTransaction_ok (h : rollbackLocalTransaction inventory num millis = .ok r) :
    ∃ e, findEntry inventory num = some e ∧ Edge e.state .rollingBack ∧ r.entry =
        { e with
          state := .rolledBack
          finalUnixEpochMillis := millis
          evidenceRecordWritten := true } ∧
      r.inventory = putEntry inventory r.entry := by
  unfold rollbackLocalTransaction at h
  simp only [inventoryError, guard_eq_ok_iff] at h
  obtain ⟨_, h⟩ := h
  split at h
  · cases h
  next e hfind =>
  simp only [guard_eq_ok_iff, bind_eq_ok_iff] at h
  obtain ⟨_, e₁, hrolling, e₂, hrolled, h⟩ := h
  obtain ⟨hedge, rfl⟩ := transitionOrFail_ok hrolling
  obtain ⟨_, rfl⟩ := transitionOrFail_ok hrolled
  cases h
  exact ⟨e, hfind, hedge, rfl, rfl⟩

theorem archiveLocalTransaction_ok (h : archiveLocalTransaction inventory num = .ok r) :
    ∃ e, findEntry inventory num = some e ∧ Edge e.state .archived ∧
      r.entry = { e with state := .archived, archivedFromState := e.state } ∧
      r.inventory = putEntry inventory r.entry := by
  unfold archiveLocalTransaction at h
  split at h
  · cases h
  simp only [inventoryError, guard_eq_ok_iff] at h
  obtain ⟨_, h⟩ := h
  split at h
  · cases h
  next e hfind =>
  simp only [guard_eq_ok_iff, bind_eq_ok_iff] at h
  obtain ⟨_, e₁, harchived, h⟩ := h
  obtain ⟨hedge, rfl⟩ := transitionOrFail_ok harchived
  cases h
  exact ⟨e, hfind, hedge, rfl, rfl⟩

theorem markLocalTransactionRollbackOnly_ok
    (h : markLocalTransactionRollbackOnly inventory num = .ok r) :
    ∃ e, findEntry inventory num = some e ∧ r.entry = { e with rollbackOnly := true } ∧
      r.inventory = putEntry inventory r.entry := by
  obtain ⟨_, h⟩ := guard_eq_ok_iff.mp h
  split at h
  · cases h
  next e hfind =>
  obtain ⟨_, h⟩ := guard_eq_ok_iff.mp h
  cases h
  exact ⟨e, hfind, rfl, rfl⟩

/-! ## Each operation evolves -/

section

variable (h : beginLocalTransactionWithState inventory uuid millis first = .ok r)
include h

/-- Begin, and begin followed by the stable-snapshot admission that the same
publication makes: the flag is the only thing that may differ. -/
theorem evolves_begin {flag : Bool} : Evolves inventory
      { r.inventory with
        entries := inventory.entries ++ [{ r.entry with stableSnapshot := flag }] } := by
  obtain ⟨hwf, huuid, hedge, hvalid, hengine, hentry, hinv⟩ := beginLocalTransactionWithState_ok h
  have hlive : isTerminalTransactionState first = false ∧ first ≠ .none := by
    unfold Edge at hedge
    revert hedge
    cases first <;> decide
  have hvis : inventoryVisibilityState { r.entry with stableSnapshot := flag } = first := by
    rw [hentry]
    exact inventoryVisibilityState_of_not_archived (ne_of_not_terminal hlive.1 rfl) rfl
  have hcommit : hasCommittedInventoryOutcome { r.entry with stableSnapshot := flag } ≠ true := by
    rw [Ne, hasCommittedInventoryOutcome_iff, hvis]
    exact ne_of_not_terminal hlive.1 rfl
  have hid : TransactionInventoryEntry.localId { r.entry with stableSnapshot := flag } =
        inventory.nextLocalTransactionId := by
    rw [hentry]
    rfl
  have huid : TransactionInventoryEntry.uuid { r.entry with stableSnapshot := flag } =
      uuid.value := by
    rw [hentry]
    rfl
  have hother : ∀ x ∈ inventory.entries, x.uuid ≠
      TransactionInventoryEntry.uuid { r.entry with stableSnapshot := flag } :=
    fun x hx => huid ▸ huuid x hx
  rw [hinv]
  refine ⟨hwf, ⟨?_, hwf.nextCommit_ne, ?_, ?_, ?_, ?_⟩, ?_, Nat.le_refl _, ?_, ?_⟩
  · show inventory.nextLocalTransactionId + 1 ≠ 0
    omega
  · refine forall_mem_append.mpr ⟨fun x hx => ?_, forall_mem_singleton.mpr ?_⟩
    · have hwx := hwf.entry x hx
      exact { hwx with id_lt := Nat.lt_succ_of_lt hwx.id_lt }
    · have hne := hwf.nextCommit_ne
      refine ⟨?_, ?_, ?_, fun hc => absurd hc hcommit, ?_, ?_, huid ▸ hengine,
        hid ▸ Nat.lt_succ_self _, ?_⟩ <;> rw [hentry]
      · show inventory.nextCommitSequence - 1 < inventory.nextCommitSequence
        omega
      · exact fun harch => absurd harch (ne_of_not_terminal hlive.1 rfl)
      · exact fun _ => rfl
      · exact fun _ => rfl
      · exact hvalid
      · exact hlive.2
  · rw [map_append, List.nodup_append]
    refine ⟨hwf.localIds, by simp, ?_⟩
    intro a ha b hb
    obtain ⟨x, hx, rfl⟩ := mem_map.mp ha
    obtain rfl : b = inventory.nextLocalTransactionId := by simpa [hid] using hb
    exact Nat.ne_of_lt (hwf.entry x hx).id_lt
  · simp only [forall_mem_append, forall_mem_singleton]
    refine ⟨fun a ha => ⟨hwf.uuids a ha, fun heq => absurd heq (hother a ha)⟩, ?_, fun _ => trivial⟩
    exact fun b hb heq => absurd heq.symm (hother b hb)
  · simp only [forall_mem_append, forall_mem_singleton]
    refine ⟨fun a ha => ⟨hwf.commits a ha, fun _ hc => absurd hc hcommit⟩, ?_, fun _ _ _ => trivial⟩
    exact fun b _ hc => absurd hc hcommit
  · exact Nat.le_succ _
  · refine forall_mem_append.mpr ⟨fun x hx => .inl ⟨x, hx, rfl, EntryEvolves.refl _ x⟩, ?_⟩
    refine forall_mem_singleton.mpr (.inr ⟨Nat.le_of_eq hid.symm, hother, ?_⟩)
    exact fun hc => absurd hc hcommit
  · intro old hold hne
    exact absurd rfl (hne old (mem_append.mpr (.inl hold)))

theorem evolves_beginLocalTransactionWithState : Evolves inventory r.inventory := by
  obtain ⟨_, _, _, _, _, hentry, hinv⟩ := beginLocalTransactionWithState_ok h
  have hev : Evolves inventory
      { r.inventory with
        entries := inventory.entries ++
          [{ r.entry with stableSnapshot := false }] } := evolves_begin h
  have hsame : { r.entry with stableSnapshot := false } = r.entry := by rw [hentry]
  rw [hsame] at hev
  rw [hinv] at hev ⊢
  exact hev

end

section

variable (hwf : WellFormed inventory)
include hwf

section

variable (hfind : findEntry inventory num = some e)
  (hadv : Advances inventory.nextCommitSequence e e')
include hfind hadv

/-- An advance of one entry that leaves the commit counter alone. -/
theorem evolves_advance (hne : e'.state ≠ .committed) : Evolves inventory (putEntry inventory e') :=
  have hent := hwf.entry e (findEntry_mem hfind).1
  evolves_putEntry hwf hfind (Nat.le_refl _) hadv.identity
    (hadv.wellFormed hent (Nat.le_refl _) fun hc => absurd hc hne) (hadv.evolves hent)

/-- An advance of one entry to a commit with the next sequence. -/
theorem evolves_commit (hseq : e'.commitSequence = inventory.nextCommitSequence) : Evolves inventory
      { putEntry inventory e' with
        nextCommitSequence := inventory.nextCommitSequence + 1 } := by
  have hent := hwf.entry e (findEntry_mem hfind).1
  refine evolves_putEntry hwf hfind (Nat.le_succ _) hadv.identity
    (hadv.wellFormed hent (Nat.le_succ _) ?_) (hadv.evolves hent)
  intro _
  rw [hseq]
  exact Nat.lt_succ_self _

end

theorem evolves_rollbackLocalTransaction
    (h : rollbackLocalTransaction inventory num millis = .ok r) :
    Evolves inventory r.inventory := by
  obtain ⟨e, hfind, hedge, hentry, hinv⟩ := rollbackLocalTransaction_ok h
  rw [hinv, hentry]
  refine evolves_advance hwf hfind ?_ (by simp)
  have hreach : stateReachable e.state .rolledBack = true :=
    stateReachable_trans (stateReachable_of_edge hedge)
      (stateReachable_of_edge (by unfold Edge; decide))
  exact ⟨rfl, rfl, rfl, rfl, rfl, rfl, id, fun _ => rfl,
    not_terminal_of_edge hedge nofun, hreach, by simp, by simp, by simp, fun _ => rfl⟩

theorem evolves_prepareLocalTransactionDurable
    (h : prepareLocalTransactionDurable inventory num policy = .ok r) :
    Evolves inventory r.inventory := by
  rcases prepareLocalTransactionDurable_ok h with
    hroll | ⟨e, req, written, hfind, hedge, hreq, hwritten, hentry, hinv⟩
  · exact evolves_rollbackLocalTransaction hwf hroll
  rw [hinv, hentry]
  refine evolves_advance hwf hfind ?_ (by simp)
  have hreach : stateReachable e.state .prepared = true :=
    stateReachable_trans (stateReachable_of_edge hedge)
      (stateReachable_of_edge (by unfold Edge; decide))
  exact ⟨rfl, rfl, rfl, rfl, rfl, rfl, hreq, hwritten,
    not_terminal_of_edge hedge nofun, hreach, by simp, by simp, by simp, fun _ => rfl⟩

theorem evolves_commitLocalTransaction (h : commitLocalTransaction inventory num millis = .ok r) :
    Evolves inventory r.inventory := by
  obtain ⟨e, hfind, hlive, hreach, _, hentry, hinv⟩ := commitLocalTransaction_ok h
  rw [hinv, hentry]
  refine evolves_commit hwf hfind ?_ rfl
  exact ⟨rfl, rfl, rfl, rfl, rfl, rfl, id, fun _ => rfl, hlive, hreach,
    by simp, by simp, fun _ => Nat.le_refl _, by simp⟩

omit hwf in
/-- Archiving keeps the outcome: it only moves it from the state to the
origin. -/
theorem outcome_archived (hent : EntryWellFormed nextId n e) (hedge : Edge e.state .archived) :
    inventoryVisibilityState { e with state := .archived, archivedFromState := e.state } =
      e.state ∧ inventoryVisibilityState e = e.state := by
  have horigin := origin_of_edge_archived hedge
  have hs : e.state ≠ .archived := by
    intro hs
    rw [hs] at horigin
    exact absurd horigin nofun
  exact ⟨inventoryVisibilityState_archived rfl horigin,
    inventoryVisibilityState_of_not_archived hs (hent.origin_none hs)⟩

theorem evolves_archiveLocalTransaction (h : archiveLocalTransaction inventory num = .ok r) :
    Evolves inventory r.inventory := by
  obtain ⟨e, hfind, hedge, hentry, hinv⟩ := archiveLocalTransaction_ok h
  have hent := hwf.entry e (findEntry_mem hfind).1
  obtain ⟨hnew, hold⟩ := outcome_archived hent hedge
  have hcom : hasCommittedInventoryOutcome
      { e with state := .archived, archivedFromState := e.state } =
        hasCommittedInventoryOutcome e := by
    unfold hasCommittedInventoryOutcome
    rw [hnew, hold]
  rw [hinv, hentry]
  refine evolves_putEntry hwf hfind (Nat.le_refl _) rfl ?_ ?_
  · exact { hent with
      origin := fun _ => origin_of_edge_archived hedge
      origin_none := absurd rfl
      committed := hcom ▸ hent.committed
      uncommitted := hcom ▸ hent.uncommitted
      state_ne := nofun }
  · refine ⟨rfl, rfl, rfl, rfl, rfl, rfl, id, id, ?_, stateReachable_of_edge hedge, ?_, ?_⟩
    · intro _
      exact ⟨hold.trans hnew.symm, rfl, rfl⟩
    · intro _ _
      rw [hnew]
      exact stateReachable_refl _
    · rw [hcom]
      exact fun hne hc => absurd hc hne

theorem evolves_markLocalTransactionRollbackOnly
    (h : markLocalTransactionRollbackOnly inventory num = .ok r) :
    Evolves inventory r.inventory := by
  obtain ⟨e, hfind, hentry, hinv⟩ := markLocalTransactionRollbackOnly_ok h
  have hent := hwf.entry e (findEntry_mem hfind).1
  rw [hinv, hentry]
  refine evolves_putEntry hwf hfind (Nat.le_refl _) rfl ?_ ?_
  · exact { hent with }
  · exact { EntryEvolves.refl inventory.nextCommitSequence e with }

end

/-- Compaction only drops archived entries, and never a failed one, so what it
drops was resolved. -/
theorem evolves_compactLocalTransactionInventory {request : TransactionInventoryCompactionRequest}
    {r : TransactionInventoryCompactionResult}
    (h : compactLocalTransactionInventory request = .ok r) :
    Evolves request.inventory r.inventory := by
  unfold compactLocalTransactionInventory at h
  simp only [inventoryError, guard_eq_ok_iff] at h
  obtain ⟨_, _, h⟩ := h
  split at h
  · cases h
  next hvalid =>
  have hwf := validateStructure_eq_none_iff.mp hvalid
  cases h
  have hsub : ∀ x ∈ request.inventory.entries.filter
      (fun e => !compactionCanDrop request e), x ∈ request.inventory.entries :=
    fun x hx => (mem_filter.mp hx).1
  refine ⟨hwf, ⟨hwf.nextId_ne, hwf.nextCommit_ne, fun x hx => hwf.entry x (hsub x hx), ?_,
    fun a ha b hb => hwf.uuids a (hsub a ha) b (hsub b hb),
    fun a ha b hb => hwf.commits a (hsub a ha) b (hsub b hb)⟩, Nat.le_refl _, Nat.le_refl _,
    fun x hx => .inl ⟨x, hsub x hx, rfl, EntryEvolves.refl _ x⟩, ?_⟩
  · exact hwf.localIds.sublist (List.filter_sublist.map _)
  · intro old hold hne
    have hdrop : compactionCanDrop request old = true := by
      by_contra hkeep
      refine hne old (mem_filter.mpr ⟨hold, ?_⟩) rfl
      simpa using hkeep
    simp only [compactionCanDrop, Bool.and_eq_true, beq_iff_eq, bne_iff_ne] at hdrop
    obtain ⟨⟨⟨⟨_, harch⟩, hfailed⟩, _⟩, _⟩ := hdrop
    have horigin := (hwf.entry old hold).origin harch
    unfold Resolved
    rw [inventoryVisibilityState_archived harch horigin]
    rcases horigin with ho | ho | ho
    · exact .inl ho
    · exact .inr ho
    · exact absurd ho hfailed

end ScratchBird.Mga
