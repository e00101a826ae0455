import Mathlib.Data.List.Induction
import ScratchBird.Mga.Isolation

/-!
# Write skew

Two transactions skew if each has read over what the other has written. Which of
the two accesses came first matters to the tracker. A write is checked against
every access that is already there, and is refused where it overlaps one of another
transaction, so no read that came before it can be under it
(`evaluate_ok_overlap`). A read is checked against nothing.

So a skew can only be closed by a read, and it is closed exactly by one over a
write of a transaction that has itself read over a write of the reader
(`SafeRead`). Since nothing is ever taken out of the tracker, a skew once closed
stays.
-/

namespace ScratchBird.Mga

open List

variable {accesses existing : List SerializableAccessRecord}
  {access write : SerializableAccessRecord} {t u : Nat} {tracker : SerializableConflictTracker}

/-! ## Overlaps -/

theorem isReadKind_of_valid (h : (validateSerializableAccess access).ok = true) :
    isReadKind access.kind = !isWriteKind access.kind := by
  cases hkind : access.kind with
  | unknown =>
    rw [validateSerializableAccess] at h
    simp [hkind, SerializableConflictResult.ok, serializableRefused] at h
    split_ifs at h
  | _ => rfl

/-- A recorded access that overlaps stands against the write, whatever its kind. -/
theorem conflictWith_refuses {result : SerializableConflictResult}
    (h : conflictWith write existing = some result) : result.ok = false := by
  fun_induction conflictWith write existing with
  | case1 => cases h
  | case2 _ _ _ ih => exact ih h
  | case3 first rest _ hinvalid =>
    cases h
    simpa using hinvalid
  | case4 _ _ _ _ _ ih => exact ih h
  | case10 _ _ _ _ _ _ _ _ _ ih => exact ih h
  | _ =>
    cases h
    rfl

theorem conflictWith_none (h : conflictWith write existing = none) :
    ∀ other ∈ existing, other.localId ≠ write.localId →
      boundsOverlap other.range write.range = false := by
  fun_induction conflictWith write existing with
  | case1 => exact forall_mem_nil _
  | case2 first rest hsame ih => exact forall_mem_cons.mpr ⟨fun hne => absurd hsame hne, ih h⟩
  | case4 first rest _ _ hapart ih =>
    exact forall_mem_cons.mpr ⟨fun _ => by simpa using hapart, ih h⟩
  | case10 first rest _ hvalid _ _ hread hrange hpoint =>
    -- what is valid and no write is one of the three reads
    have hkind := isReadKind_of_valid (by simpa using hvalid)
    rw [Bool.not_eq_true] at hread hrange hpoint
    rw [hread, isReadKind, hpoint, Bool.false_or, Bool.or_comm, hrange] at hkind
    cases hkind
  | _ => cases h

theorem evaluate_ok_overlap (h : (evaluateSerializableWriteConflict existing write).ok = true) :
    ∀ other ∈ existing, other.localId ≠ write.localId →
      boundsOverlap other.range write.range = false := by
  rw [evaluateSerializableWriteConflict] at h
  split at h
  · next hinvalid =>
    rw [h] at hinvalid
    cases hinvalid
  split at h
  · cases h
  cases hconflict : conflictWith write existing with
  | none => exact conflictWith_none hconflict
  | some result =>
    rw [hconflict, Option.getD_some, conflictWith_refuses hconflict] at h
    cases h

/-! ## Skew -/

/-- The first transaction has read over a write of the second. -/
def ReadsOver (accesses : List SerializableAccessRecord) (t u : Nat) : Prop :=
  ∃ r ∈ accesses, ∃ w ∈ accesses, r.localId = t ∧ w.localId = u ∧
    isReadKind r.kind = true ∧ isWriteKind w.kind = true ∧ boundsOverlap r.range w.range = true

def WriteSkew (accesses : List SerializableAccessRecord) : Prop :=
  ∃ t u, t ≠ u ∧ ReadsOver accesses t u ∧ ReadsOver accesses u t

/-- The read lies over no write of a transaction that has read over a write of
the reader. -/
def SafeRead (accesses : List SerializableAccessRecord) (read : SerializableAccessRecord) : Prop :=
  ∀ w ∈ accesses, isWriteKind w.kind = true → w.localId ≠ read.localId →
    boundsOverlap read.range w.range = true → ¬ReadsOver accesses w.localId read.localId

theorem ReadsOver.append (h : ReadsOver accesses t u) : ReadsOver (accesses ++ [access]) t u := by
  obtain ⟨r, hr, w, hw, hrest⟩ := h
  exact ⟨r, mem_append_left _ hr, w, mem_append_left _ hw, hrest⟩

theorem isWriteKind_of_isReadKind {kind : SerializableAccessKind}
    (h : isReadKind kind = true) : isWriteKind kind = false := by
  cases kind with
  | pointRead => rfl
  | rangeRead => rfl
  | predicateRead => rfl
  | insert => cases h
  | update => cases h
  | deleteRow => cases h
  | unknown => rfl

theorem readsOver_append_write (hwrite : isWriteKind write.kind = true)
    (hfree : ∀ other ∈ accesses, other.localId ≠ write.localId →
      boundsOverlap other.range write.range = false) (hne : t ≠ u) :
    ReadsOver (accesses ++ [write]) t u ↔ ReadsOver accesses t u := by
  refine ⟨?_, ReadsOver.append⟩
  rintro ⟨r, hr, w, hw, rfl, rfl, hread, hkind, hoverlap⟩
  rcases mem_append.mp hr with hr | hr
  · rcases mem_append.mp hw with hw | hw
    · exact ⟨r, hr, w, hw, rfl, rfl, hread, hkind, hoverlap⟩
    · rw [mem_singleton.mp hw] at hne hoverlap
      rw [hfree r hr hne] at hoverlap
      cases hoverlap
  · rw [mem_singleton.mp hr] at hread
    rw [isWriteKind_of_isReadKind hread] at hwrite
    cases hwrite

theorem readsOver_append_read (hread : isReadKind access.kind = true) :
    ReadsOver (accesses ++ [access]) t u ↔ ReadsOver accesses t u ∨
      (access.localId = t ∧ ∃ w ∈ accesses, w.localId = u ∧
        isWriteKind w.kind = true ∧ boundsOverlap access.range w.range = true) := by
  constructor
  · rintro ⟨r, hr, w, hw, rfl, rfl, hr', hkind, hoverlap⟩
    have hold : w ∈ accesses := by
      rcases mem_append.mp hw with hw | hw
      · exact hw
      · rw [mem_singleton.mp hw, isWriteKind_of_isReadKind hread] at hkind
        cases hkind
    rcases mem_append.mp hr with hr | hr
    · exact .inl ⟨r, hr, w, hold, rfl, rfl, hr', hkind, hoverlap⟩
    · rw [mem_singleton.mp hr] at hoverlap ⊢
      exact .inr ⟨rfl, w, hold, rfl, hkind, hoverlap⟩
  · rintro (hold | ⟨rfl, w, hw, rfl, hkind, hoverlap⟩)
    · exact hold.append
    · exact ⟨access, mem_append_right _ (mem_singleton_self _), w,
        mem_append_left _ hw, rfl, rfl, hread, hkind, hoverlap⟩

theorem writeSkew_append_read_iff (hread : isReadKind access.kind = true) :
    ¬WriteSkew (accesses ++ [access]) ↔ ¬WriteSkew accesses ∧ SafeRead accesses access := by
  constructor
  · intro hnone
    refine ⟨?_, ?_⟩
    · rintro ⟨t, u, hne, htu, hut⟩
      exact hnone ⟨t, u, hne, htu.append, hut.append⟩
    · intro w hw hkind hne hoverlap hback
      refine hnone ⟨access.localId, w.localId, Ne.symm hne, ?_, hback.append⟩
      exact (readsOver_append_read hread).mpr (.inr ⟨rfl, w, hw, rfl, hkind, hoverlap⟩)
  · rintro ⟨hnone, hsafe⟩ ⟨t, u, hne, htu, hut⟩
    rcases (readsOver_append_read hread).mp htu with
      htu | ⟨rfl, w, hw, rfl, hkind, hoverlap⟩
    · rcases (readsOver_append_read hread).mp hut with
        hut | ⟨rfl, w, hw, rfl, hkind, hoverlap⟩
      · exact hnone ⟨t, u, hne, htu, hut⟩
      · exact hsafe w hw hkind hne hoverlap htu
    · rcases (readsOver_append_read hread).mp hut with hut | ⟨heq, -⟩
      · exact hsafe w hw hkind (Ne.symm hne) hoverlap hut
      · exact hne heq

theorem writeSkew_append_write_iff (hwrite : isWriteKind write.kind = true)
    (hfree : ∀ other ∈ accesses, other.localId ≠ write.localId →
      boundsOverlap other.range write.range = false) :
    WriteSkew (accesses ++ [write]) ↔ WriteSkew accesses := by
  constructor
  · rintro ⟨t, u, hne, htu, hut⟩
    exact ⟨t, u, hne, (readsOver_append_write hwrite hfree hne).mp htu,
      (readsOver_append_write hwrite hfree (Ne.symm hne)).mp hut⟩
  · rintro ⟨t, u, hne, htu, hut⟩
    exact ⟨t, u, hne, htu.append, hut.append⟩

/-! ## Calls -/

namespace SerializableConflictTracker

/-- A read is recorded exactly when it is well formed, a write only if it overlaps
nothing of another transaction. -/
theorem recordAccess_cases (tracker : SerializableConflictTracker)
    (access : SerializableAccessRecord) :
    (((validateSerializableAccess access).ok = false ∨ isWriteKind access.kind = true) ∧
      (tracker.recordAccess access).2 = tracker) ∨
    ((tracker.recordAccess access).2.accesses = tracker.accesses ++ [access] ∧
      (isReadKind access.kind = true ∧ (validateSerializableAccess access).ok = true ∨
        isWriteKind access.kind = true ∧ ∀ other ∈ tracker.accesses,
          other.localId ≠ access.localId → boundsOverlap other.range access.range = false)) := by
  rw [recordAccess]
  split
  · next hinvalid => exact .inl ⟨.inl (by simpa using hinvalid), rfl⟩
  next hvalid =>
  split
  · next hwrite =>
    rw [recordWrite]
    split
    · exact .inl ⟨.inr hwrite, rfl⟩
    · next hok =>
      have hok : (tracker.checkWrite access).ok = true := by simpa using hok
      exact .inr ⟨rfl, .inr ⟨hwrite, evaluate_ok_overlap hok⟩⟩
  · next hread =>
    have hvalid : (validateSerializableAccess access).ok = true := by simpa using hvalid
    refine .inr ⟨rfl, .inl ⟨?_, hvalid⟩⟩
    rw [isReadKind_of_valid hvalid]
    simpa using hread

theorem run_append (calls : List SerializableAccessRecord) (access : SerializableAccessRecord) :
    run (calls ++ [access]) = ((run calls).recordAccess access).2 := by
  rw [run, foldl_append]
  rfl

theorem writeSkew_recordAccess_iff (tracker : SerializableConflictTracker)
    (access : SerializableAccessRecord) :
    ¬WriteSkew (tracker.recordAccess access).2.accesses ↔ ¬WriteSkew tracker.accesses ∧
        (isReadKind access.kind = true → (validateSerializableAccess access).ok = true →
            SafeRead tracker.accesses access) := by
  rcases recordAccess_cases tracker access with
    ⟨hrefused, hsame⟩ | ⟨hmore, ⟨hread, hvalid⟩ | ⟨hwrite, hfree⟩⟩
  · rw [hsame]
    refine ⟨fun hnone => ⟨hnone, fun hread hvalid => ?_⟩, fun h => h.1⟩
    rcases hrefused with hinvalid | hwrite
    · rw [hvalid] at hinvalid
      cases hinvalid
    · rw [isWriteKind_of_isReadKind hread] at hwrite
      cases hwrite
  · rw [hmore, writeSkew_append_read_iff hread, hvalid, hread]
    simp
  · rw [hmore, writeSkew_append_write_iff hwrite hfree]
    refine ⟨fun hnone => ⟨hnone, fun hread => ?_⟩, fun h => h.1⟩
    rw [isWriteKind_of_isReadKind hread] at hwrite
    cases hwrite

/-- The admitted accesses have no write skew exactly when every well formed read was
safe at the time it was recorded. -/
theorem no_writeSkew_iff (calls : List SerializableAccessRecord) :
    ¬WriteSkew (run calls).accesses ↔ ∀ done access, done ++ [access] <+: calls →
        isReadKind access.kind = true → (validateSerializableAccess access).ok = true →
            SafeRead (run done).accesses access := by
  induction calls using List.reverseRecOn with
  | nil =>
    refine iff_of_true ?_ ?_
    · rintro ⟨t, u, -, ⟨r, hr, -⟩, -⟩
      cases hr
    · intro done access hprefix
      exact absurd (List.prefix_nil.mp hprefix) (by simp)
  | append_singleton calls last ih =>
    rw [run_append, writeSkew_recordAccess_iff, ih]
    constructor
    · rintro ⟨hbefore, hlast⟩ done access hprefix
      rcases List.prefix_concat_iff.mp hprefix with heq | hprefix
      · obtain ⟨rfl, hsame⟩ := List.append_inj' heq rfl
        obtain rfl := List.singleton_injective hsame
        exact hlast
      · exact hbefore done access hprefix
    · intro hall
      refine ⟨fun done access hprefix => hall done access ?_, ?_⟩
      · exact hprefix.trans (prefix_append calls [last])
      · exact hall calls last (List.prefix_refl _)

def relationUnderTest : TypedUuid := { kind := .object, value := engineUuid 1 }

def pointAccess (transaction : Nat) (kind : SerializableAccessKind) (key : UInt8)
    (sequence : Nat) : SerializableAccessRecord :=
  { localId := transaction
    transactionState := .active
    kind
    range := makeSerializablePointRange relationUnderTest [key]
    sequence
    durableInventoryAuthoritative := true }

/-- Two transactions write one row each, and then each reads the other's. -/
def readsAfterWrites : List SerializableAccessRecord :=
  [pointAccess 1 .update 10 1, pointAccess 2 .update 20 2,
   pointAccess 1 .pointRead 20 3, pointAccess 2 .pointRead 10 4]

theorem readsAfterWrites_skew : WriteSkew (run readsAfterWrites).accesses := by
  refine ⟨1, 2, by decide, ⟨pointAccess 1 .pointRead 20 3, by decide,
    pointAccess 2 .update 20 2, by decide, ?_⟩, ⟨pointAccess 2 .pointRead 10 4,
    by decide, pointAccess 1 .update 10 1, by decide, ?_⟩⟩
  · decide
  · decide

end SerializableConflictTracker

end ScratchBird.Mga
