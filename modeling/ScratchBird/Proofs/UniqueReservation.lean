import Mathlib.Data.List.Pairwise
import ScratchBird.Lib.Refusal
import ScratchBird.Index.UniqueReservation

/-!
# A unique key belongs to one row

A reservation counts as decided once validation has let it through. Only
validation creates decided reservations, and it compares each reservation of its
transaction with every reservation in the ledger, whatever state that one is in.
So the two loops of validation say the same thing about every pair with at least
one reservation of the transaction: if the keys agree, so do the rows. Pairs
without such a reservation are as they were. Reserving adds an undecided record,
publication moves records from one decided state to the other, and rollback only
removes, so nothing else has to be looked at.

The comparisons of the ledger call two invalid identities different, even when
they are equal. A record is made from a request whose identities were checked, so
in a ledger the comparisons are equality.
-/

namespace ScratchBird.UniqueIndexReservation

open Lib Mga List

variable {left right : TypedUuid} {own other : Record} {reservations : List Record}
  {ledger : Ledger} {request : CommitValidationRequest}

theorem eq_of_sameUuid (h : sameUuid left right) :
    left = right := by
  cases left
  simp only [sameUuid, Bool.and_eq_true, beq_iff_eq] at h
  simp [h.1.1.1, h.2]

theorem sameUuid_of_value {kind : UuidKind}
    (hl : validUuidKind left kind) (hr : validUuidKind right kind)
    (hvalue : left.value = right.value) : sameUuid left right := by
  simp only [validUuidKind, Bool.and_eq_true, beq_iff_eq] at hl hr
  simp [sameUuid, hl.1, hr.1, hl.2, hr.2, hvalue]

namespace Claim

/-- The identities that the request check leaves in a record. -/
structure Identified (claim : Claim) : Prop where
  index : validUuidKind claim.indexUuid .object
  table : validUuidKind claim.tableUuid .object
  constraint : validUuidKind claim.constraintUuid .object
  row : validUuidKind claim.rowUuid .row

/-- One key, as far as the bytes of the identities tell. -/
def SameClaim (left right : Claim) : Prop :=
  left.indexUuid.value = right.indexUuid.value ∧
    left.tableUuid.value = right.tableUuid.value ∧
    left.constraintUuid.value = right.constraintUuid.value ∧
    left.encodedKey = right.encodedKey

variable {left right : Claim}

theorem SameClaim.sameKey (hl : left.Identified) (hr : right.Identified)
    (h : SameClaim left right) : left.sameKey right := by
  have hindex := sameUuid_of_value hl.index hr.index h.1
  have htable := sameUuid_of_value hl.table hr.table h.2.1
  have hconstraint := sameUuid_of_value hl.constraint hr.constraint h.2.2.1
  simp [Claim.sameKey, sameReservationScope, hindex, htable, hconstraint, h.2.2.2]

/-- One key, one row. -/
def Agree (left right : Claim) : Prop := SameClaim left right → left.rowUuid = right.rowUuid

theorem Agree.symm (h : Agree left right) : Agree right left := by
  intro hclaim
  exact (h ⟨hclaim.1.symm, hclaim.2.1.symm, hclaim.2.2.1.symm, hclaim.2.2.2.symm⟩).symm

end Claim

open Claim

/-- Validation has let the reservation through. -/
def Record.decided (record : Record) : Bool :=
  record.state == .commitValidated || record.state == .committedPublished

/-! ## What a ledger keeps -/

structure Exclusive (reservations : List Record) : Prop where
  identified : ∀ record ∈ reservations, record.toClaim.Identified
  agree : ∀ left ∈ reservations, ∀ right ∈ reservations,
    left.decided → right.decided → Agree left.toClaim right.toClaim

theorem Exclusive.subset {kept : List Record} (h : Exclusive reservations)
    (hkept : kept ⊆ reservations) : Exclusive kept :=
  ⟨fun record hmem => h.identified record (hkept hmem),
    fun left hl right hr => h.agree left (hkept hl) right (hkept hr)⟩

/-- After the reservations of a transaction are marked it is enough to know the
pairs that come out decided. -/
theorem Exclusive.mark {transactionUuid : TypedUuid} {localTransactionId : Nat}
    {change : Record → Record} (h : Exclusive ledger.reservations)
    (hchange : ∀ record, (change record).toClaim = record.toClaim)
    (hdecided : ∀ left ∈ ledger.reservations, ∀ right ∈ ledger.reservations,
      (left.ofTransaction transactionUuid localTransactionId ∨ left.decided) →
      (right.ofTransaction transactionUuid localTransactionId ∨ right.decided) →
        Agree left.toClaim right.toClaim) :
    Exclusive (ledger.mark transactionUuid localTransactionId change).reservations := by
  have hmarked : ∀ record ∈ (ledger.mark transactionUuid localTransactionId change).reservations,
      ∃ before ∈ ledger.reservations, record.toClaim = before.toClaim ∧ (record.decided →
          before.ofTransaction transactionUuid localTransactionId ∨ before.decided) := by
    intro record hmem
    obtain ⟨before, hbefore, rfl⟩ := mem_map.mp hmem
    refine ⟨before, hbefore, ?_⟩
    split
    · next hown => exact ⟨hchange before, fun _ => .inl hown⟩
    · exact ⟨rfl, .inr⟩
  constructor
  · intro record hmem
    obtain ⟨before, hbefore, hclaim, -⟩ := hmarked record hmem
    rw [hclaim]
    exact h.identified before hbefore
  · intro left hl right hr hdl hdr
    obtain ⟨left', hleft, hclaimLeft, hl⟩ := hmarked left hl
    obtain ⟨right', hright, hclaimRight, hr⟩ := hmarked right hr
    rw [hclaimLeft, hclaimRight]
    exact hdecided left' hleft right' hright (hl hdl) (hr hdr)

/-! ## Reserving -/

theorem identified_of_validate {request : Request}
    (h : validateCommonReservationRequest request = none) (sequence : Nat) :
    (request.toRecord sequence).toClaim.Identified := by
  simp only [validateCommonReservationRequest, guard_eq_none_iff, Bool.or_eq_true,
    not_or, Bool.not_eq_true, Bool.not_eq_false'] at h
  obtain ⟨⟨⟨⟨⟨⟨⟨hindex, htable⟩, hconstraint⟩, hrow⟩, -⟩, -⟩, -⟩, -⟩ := h
  exact ⟨hindex, htable, hconstraint, hrow⟩

/-- The call adds one undecided record or none. -/
theorem reserve_reservations (ledger : Ledger) (request : Request) :
    (reserveUniqueIndexKey ledger request).2.reservations = ledger.reservations ∨
      ∃ sequence, (request.toRecord sequence).toClaim.Identified ∧
        (reserveUniqueIndexKey ledger request).2.reservations =
          ledger.reservations ++ [request.toRecord sequence] := by
  rw [reserveUniqueIndexKey]
  cases hvalid : validateCommonReservationRequest request with
  | some detail => exact .inl rfl
  | none =>
    dsimp only
    split
    · exact .inl rfl
    · split
      · exact .inl rfl
      · cases weighReservations request false ledger.reservations with
        | error result => exact .inl rfl
        | ok sameRowAllowed => exact .inr ⟨_, identified_of_validate hvalid _, rfl⟩

theorem Exclusive.reserve (h : Exclusive ledger.reservations) (request : Request) :
    Exclusive (reserveUniqueIndexKey ledger request).2.reservations := by
  rcases reserve_reservations ledger request with hsame | ⟨sequence, hnew, hadded⟩
  · rw [hsame]
    exact h
  · rw [hadded]
    have hopen : (request.toRecord sequence).decided ≠ true := Bool.false_ne_true
    constructor
    · exact forall_mem_append.mpr ⟨h.identified, forall_mem_singleton.mpr hnew⟩
    · simp only [forall_mem_append, forall_mem_singleton]
      exact ⟨fun left hl => ⟨h.agree left hl, fun _ hr => absurd hr hopen⟩,
        fun _ _ hl => absurd hl hopen, fun hl => absurd hl hopen⟩

/-! ## Validating -/

theorem agree_of_firstUnprovenPair {own : List Record}
    (hown : ∀ record ∈ own, record.toClaim.Identified) (h : firstUnprovenPair own = none) :
    own.Pairwise fun left right => Agree left.toClaim right.toClaim := by
  induction own with
  | nil => exact .nil
  | cons left rest ih =>
    rw [firstUnprovenPair] at h
    cases hfound : rest.find? fun right =>
        left.sameKey right.toClaim && !recordPairHasSameRowProof left right with
    | some right =>
      rw [hfound] at h
      cases h
    | none =>
      rw [hfound] at h
      refine pairwise_cons.mpr ⟨?_, ih (forall_mem_cons.mp hown).2 h⟩
      intro right hright hclaim
      have hkey := hclaim.sameKey (hown left mem_cons_self) (hown right (mem_cons_of_mem _ hright))
      have hpair := List.find?_eq_none.mp hfound right hright
      rw [hkey, recordPairHasSameRowProof] at hpair
      by_cases hrow : sameUuid left.rowUuid right.rowUuid
      · exact eq_of_sameUuid hrow
      · simp [hrow] at hpair

theorem agree_of_weighOther (hown : own.toClaim.Identified) (hother : other.toClaim.Identified)
    (hforeign : other.ofTransaction request.transactionUuid request.localTransactionId = false)
    (h : weighOther request own other = none) : Agree own.toClaim other.toClaim := by
  intro hclaim
  rw [weighOther, hforeign, hclaim.sameKey hown hother] at h
  simp only [Bool.not_true, Bool.or_self, Bool.false_eq_true, if_false] at h
  split at h
  · next hrow =>
    rw [Bool.and_eq_true] at hrow
    exact eq_of_sameUuid hrow.1
  · cases h

/-- A reservation of the transaction agrees with every reservation there is. -/
theorem agree_of_validated (hidentified : ∀ record ∈ ledger.reservations, record.toClaim.Identified)
    (hpairs : firstUnprovenPair (ledger.ownReservations request.transactionUuid
      request.localTransactionId) = none)
    (hothers : firstCommitConflict request ledger.reservations
      (ledger.ownReservations request.transactionUuid request.localTransactionId) = none)
    (hown : own ∈ ledger.reservations)
    (hofTransaction : own.ofTransaction request.transactionUuid request.localTransactionId)
    (hother : other ∈ ledger.reservations) : Agree own.toClaim other.toClaim := by
  have hmem : own ∈ ledger.ownReservations request.transactionUuid
      request.localTransactionId := mem_filter.mpr ⟨hown, hofTransaction⟩
  cases hforeign : other.ofTransaction request.transactionUuid request.localTransactionId with
  | true =>
    have hpairwise := agree_of_firstUnprovenPair (fun record hrecord =>
      hidentified record (List.mem_of_mem_filter hrecord)) hpairs
    have : Std.Symm fun left right : Record => Agree left.toClaim right.toClaim :=
      ⟨fun _ _ => Agree.symm⟩
    exact hpairwise.forall_of_forall (fun _ _ _ => rfl) hmem (mem_filter.mpr ⟨hother, hforeign⟩)
  | false =>
    have hnone := List.findSome?_eq_none_iff.mp hothers own hmem
    exact agree_of_weighOther (hidentified own hown) (hidentified other hother)
      hforeign (List.findSome?_eq_none_iff.mp hnone other hother)

section

variable (h : Exclusive ledger.reservations)
include h

theorem Exclusive.validate (request : CommitValidationRequest) :
    Exclusive (validateUniqueIndexCommitBatch ledger request).2.reservations := by
  rw [validateUniqueIndexCommitBatch]
  split
  · exact h
  · split
    · exact h
    · dsimp only
      split
      · exact h
      · next hpairs =>
        split
        · exact h
        · next hothers =>
          refine h.mark (fun _ => rfl) ?_
          intro left hl right hr hdl hdr
          -- Either one of the two is of the transaction, or neither has changed.
          rcases hdl with hown | hdl
          · exact agree_of_validated h.identified hpairs hothers hl hown hr
          · rcases hdr with hown | hdr
            · exact (agree_of_validated h.identified hpairs hothers hr hown hl).symm
            · exact h.agree left hl right hr hdl hdr

/-! ## Publishing and rolling back -/

theorem Exclusive.publish (request : CommitPublicationRequest) :
    Exclusive (publishUniqueIndexCommit ledger request).2.reservations := by
  rw [publishUniqueIndexCommit]
  split
  · exact h
  · split
    · exact h
    · next hvalidated =>
      have hdecided : ∀ record ∈ ledger.reservations, (record.ofTransaction request.transactionUuid
            request.localTransactionId ∨ record.decided) → record.decided := by
        intro record hmem hcase
        rcases hcase with hown | hdecided
        · by_contra hundecided
          rw [any_eq_true] at hvalidated
          refine hvalidated ⟨record, mem_filter.mpr ⟨hmem, hown⟩, ?_⟩
          simp_all [Record.decided]
        · exact hdecided
      refine h.mark (fun _ => rfl) ?_
      intro left hl right hr hdl hdr
      exact h.agree left hl right hr (hdecided left hl hdl) (hdecided right hr hdr)

theorem Exclusive.cleanup (request : RollbackCleanupRequest) :
    Exclusive (cleanupUniqueIndexReservationsForRollback ledger request).2.reservations := by
  rw [cleanupUniqueIndexReservationsForRollback]
  split
  · exact h
  · exact h.subset (List.filter_subset_self _)

/-! ## Runs -/

theorem Exclusive.perform (call : Call) : Exclusive (call.perform ledger).2.reservations := by
  cases call with
  | reserve request => exact h.reserve request
  | validate request => exact h.validate request
  | publish request => exact h.publish request
  | cleanup request => exact h.cleanup request

theorem Exclusive.run (calls : List Call) :
    Exclusive (calls.foldl (fun ledger call => (call.perform ledger).2) ledger).reservations := by
  induction calls generalizing ledger with
  | nil => exact h
  | cons call rest ih => exact ih (h.perform call)

end

theorem decided_records_share_row (calls : List Call) (left right : Record)
    (hleft : left ∈ (ledgerAfter calls).reservations)
    (hright : right ∈ (ledgerAfter calls).reservations)
    (hleftState : left.state = .commitValidated ∨ left.state = .committedPublished)
    (hrightState : right.state = .commitValidated ∨ right.state = .committedPublished)
    (hindex : left.indexUuid.value = right.indexUuid.value)
    (htable : left.tableUuid.value = right.tableUuid.value)
    (hconstraint : left.constraintUuid.value = right.constraintUuid.value)
    (hkey : left.encodedKey = right.encodedKey) :
    left.rowUuid = right.rowUuid := by
  have hempty : Exclusive ({} : Ledger).reservations := ⟨by simp, by simp⟩
  have hdl : left.decided := by rcases hleftState with h | h <;> simp [Record.decided, h]
  have hdr : right.decided := by rcases hrightState with h | h <;> simp [Record.decided, h]
  exact (hempty.run calls).agree left hleft right hright hdl hdr ⟨hindex, htable, hconstraint, hkey⟩

/-! A transaction inserts a row and commits; a second one updates the row without
changing its key, and has been validated. -/

def sampleReservation (transaction : UInt8) : Request :=
  { indexUuid := ⟨.object, engineUuid 1⟩
    tableUuid := ⟨.object, engineUuid 2⟩
    constraintUuid := ⟨.object, engineUuid 3⟩
    rowUuid := ⟨.row, engineUuid 4⟩
    versionUuid := ⟨.row, engineUuid (4 + transaction)⟩
    transactionUuid := ⟨.transaction, engineUuid (16 + transaction)⟩
    localTransactionId := transaction.toNat
    encodedKey := [7]
    nullPolicyProven := true
    partialPredicateProven := true
    sameRowUpdateProven := true
    sameRowProofUuid := ⟨.row, engineUuid 4⟩ }

def sampleProof (transaction : UInt8) (state : TransactionState) : TransactionProof :=
  { transactionUuid := ⟨.transaction, engineUuid (16 + transaction)⟩
    localTransactionId := transaction.toNat
    state
    engineMgaAuthority := true
    durableTransactionInventoryAuthoritative := true
    durableCommitEvidence := true
    evidenceToken := "inventory" }

def insertThenUpdate : List Call :=
  [.reserve (sampleReservation 1),
   .validate ⟨(sampleReservation 1).transactionUuid, 1, [sampleProof 1 .committing], ""⟩,
   .publish ⟨(sampleReservation 1).transactionUuid, 1, sampleProof 1 .committed⟩,
   .reserve (sampleReservation 2),
   .validate ⟨(sampleReservation 2).transactionUuid, 2, [sampleProof 2 .committing], ""⟩]

def publishedInsert : Record :=
  { (sampleReservation 1).toRecord 1 with
    state := .committedPublished
    commitValidationEvidenceToken := "inventory"
    commitPublicationEvidenceToken := "inventory" }

def validatedUpdate : Record :=
  { (sampleReservation 2).toRecord 2 with
    state := .commitValidated
    commitValidationEvidenceToken := "inventory" }

theorem insertThenUpdate_share_row :
    (ledgerAfter insertThenUpdate).reservations = [publishedInsert, validatedUpdate] ∧
      publishedInsert.rowUuid = validatedUpdate.rowUuid := by
  have hrun : (ledgerAfter insertThenUpdate).reservations =
      [publishedInsert, validatedUpdate] := by decide +kernel
  refine ⟨hrun, decided_records_share_row insertThenUpdate publishedInsert
    validatedUpdate ?_ ?_ (.inr rfl) (.inl rfl) rfl rfl rfl rfl⟩
  · rw [hrun]
    exact mem_cons_self
  · rw [hrun]
    exact mem_cons_of_mem _ mem_cons_self

end ScratchBird.UniqueIndexReservation
