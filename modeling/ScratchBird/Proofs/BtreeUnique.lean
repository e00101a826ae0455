import ScratchBird.Index.BtreeUnique
import ScratchBird.Proofs.BtreeEven

/-!
# The keys of a unique index

In an ordered index the probe for a key finds every live cell with it, wherever
splits and deletions have put it. So a call that claims nothing inserts a cell
only when its key is new, and no two live cells have one key.

A refused call can tear the index. Then a leaf holds a key above its fence, the
probe passes that leaf over, and the same key is taken again.
-/

namespace ScratchBird.Btree

open Lib List
open Index (Bytes)

variable {tree tree' : IndexBtreePhysicalTree} {leaf : IndexBtreePageBody} {leaves : Level}
  {levels : List Level} {cell : IndexBtreeCell} {request : IndexBtreePhysicalUniqueInsertRequest}
  {call : UniqueCall} {r : IndexBtreePhysicalUniqueInsertResult}
  {d : IndexBtreePhysicalDeleteResult} {length : Nat}

/-! ## The probe -/

/-- The candidates in a leaf are what a point scan takes from it. -/
theorem leafCandidates_eq_nil_iff :
    leafCandidates cell leaf = [] ↔ leafLocators (uniqueProbe cell) leaf = [] := by
  rw [leafCandidates, leafLocators, map_eq_nil_iff, map_eq_nil_iff]
  have hsame : ∀ x ∈ leaf.cells.zipIdx, (!(x.1.deleted || x.1.highKey ||
      !scanRequestIncludesCell (uniqueProbe cell) x.1)) = (!(x.1.deleted || x.1.highKey) &&
        compareEncodedKeysOnly x.1.encodedKey cell.encodedKey == .eq) := by
    intro x _
    rw [Bool.not_or, Bool.not_not]
    rfl
  exact iff_of_eq (congrArg (· = []) (filter_congr hsame).symm)

/-- The probe finds a candidate exactly when a live cell has the key. -/
theorem Arranged.candidates (h : Arranged tree leaves levels)
    (hkey : isOrderPreservingEncodedKey cell.encodedKey = true) :
    ∃ candidates, collectUniqueConflictCandidates tree cell = .ok candidates ∧ (candidates = [] ↔
        ∀ m ∈ leaves.flatMap liveCells, m.encodedKey ≠ cell.encodedKey) := by
  have hvalid : validateScanRequest (uniqueProbe cell) = .ok () := pointRequest_valid hkey
  obtain ⟨numbers, hcollect⟩ := h.collectFromRoot_eq
  obtain ⟨state, hstate, hentries⟩ := @scan_gathers tree (uniqueProbe cell) _ hcollect
  refine ⟨state.leaves.flatMap (leafCandidates cell), ?_, ?_⟩
  · rw [collectUniqueConflictCandidates, atStage_ok_iff.mpr hstate]
    rfl
  · have hnone : state.leaves.flatMap (leafCandidates cell) = [] ↔
        (state.leaves.flatMap (leafLocators (uniqueProbe cell))).map (·.entry) = [] := by
      rw [map_eq_nil_iff, List.flatMap_eq_nil_iff, List.flatMap_eq_nil_iff]
      exact forall₂_congr fun _ _ => leafCandidates_eq_nil_iff
    have hlive : leaves.flatMap liveCells = _ := (collect_extends hcollect).entries
    rw [scannedLeaves_asked hvalid hcollect h.fencesApart] at hentries
    rw [hnone, hentries, map_eq_nil_iff, filter_eq_nil_iff, hlive]
    refine forall₂_congr fun m hm => not_congr ?_
    exact scanRequestIncludesCell_iff hvalid (leavesBelow_keys m hm)

/-! ## One call -/

/-- The keys of the live cells. -/
def liveKeysOf (leaves : Level) : List Bytes := (leaves.flatMap liveCells).map (·.encodedKey)

/-- No two live cells have one key, and all keys have one length. -/
structure DistinctKeys (length : Nat) (leaves : Level) : Prop where
  nodup : (liveKeysOf leaves).Nodup
  even : ∀ k ∈ liveKeysOf leaves, k.length = length

theorem map_entry_key (cells : List IndexBtreeCell) :
    (cells.map (·.entry)).map (·.encodedKey) = cells.map (·.encodedKey) := by
  rw [map_map]
  rfl

theorem validationCell_key (h : CellFits false (validationCell cell)) :
    isOrderPreservingEncodedKey cell.encodedKey = true := h.key

section

variable (h : Arranged tree leaves levels)
include h

section

variable (hclaims : nullExempt request = false ∧ uniqueSameRowProofValid request = false)
include hclaims

/-- The probe of a call that claims nothing finds every live cell with its key. -/
theorem Arranged.key_free
    (hpassed : validatePhysicalPageBody (requestProbe tree (validationCell request.cell)) = .ok ())
    {candidates : List IndexBtreePhysicalUniqueConflictCandidate}
    (hcollected : (if nullExempt request then .ok [] else
      collectUniqueConflictCandidates tree request.cell) = .ok candidates)
    (hconflict : ¬(candidates ≠ [] ∧ !sameRowUpdate request candidates)) :
    ∀ m ∈ leaves.flatMap liveCells, m.encodedKey ≠ (validationCell request.cell).encodedKey := by
  rw [hclaims.1] at hcollected
  obtain ⟨found, hfound, hnone⟩ := h.candidates (validationCell_key (requestProbe_fits hpassed))
  obtain rfl := Except.ok.inj (hfound.symm.trans hcollected)
  rw [sameRowUpdate, hclaims.2] at hconflict
  exact hnone.mp (by simpa using hconflict)

/-- What a call does that claims nothing: nothing, or it inserts a cell whose key
no live cell has. -/
theorem Arranged.insertUnique_cases
    (hr : Returns (insertUniqueIndexBtreeCell request) tree r tree') :
    tree = tree' ∨ (∀ m ∈ leaves.flatMap liveCells,
        m.encodedKey ≠ (validationCell request.cell).encodedKey) ∧
      ∃ inserted, Returns (insertIndexBtreeCell (validationCell request.cell)) tree
        inserted tree' := by
  obtain ⟨-, hr⟩ := returns_guard.mp hr
  split at hr
  · exact .inl (returns_pure.mp hr).2
  · obtain ⟨u, hpassed, hr⟩ := returns_ofOutcome_bind.mp hr
    obtain ⟨candidates, hcollected, hr⟩ := returns_ofOutcome_bind.mp hr
    split at hr
    · exact .inl (returns_pure.mp hr).2
    · next hconflict =>
      obtain ⟨inserted, t, hinsert, hr⟩ := returns_bind.mp hr
      obtain ⟨-, rfl⟩ := returns_pure.mp hr
      exact .inr ⟨h.key_free hclaims hpassed hcollected hconflict, inserted, hinsert⟩

end

theorem Arranged.insertUnique (hkeys : DistinctKeys length leaves)
    (hclaims : nullExempt request = false ∧ uniqueSameRowProofValid request = false)
    (hlength : request.cell.encodedKey.length = length)
    (hr : Returns (insertUniqueIndexBtreeCell request) tree r tree') :
    ∃ leaves' levels', Arranged tree' leaves' levels' ∧ DistinctKeys length leaves' := by
  rcases h.insertUnique_cases hclaims hr with rfl | ⟨hnew, inserted, hinsert⟩
  · exact ⟨leaves, levels, h, hkeys⟩
  · have hkey : (validationCell request.cell).encodedKey ∉ liveKeysOf leaves := by
      intro hmem
      obtain ⟨m, hm, heq⟩ := mem_map.mp hmem
      exact hnew m hm heq
    have hentry : (validationCell request.cell).entry ∉
        (leaves.flatMap liveCells).map (·.entry) := by
      intro hmem
      obtain ⟨m, hm, heq⟩ := mem_map.mp hmem
      exact hnew m hm (congrArg BtreeEntry.encodedKey heq)
    obtain ⟨leaves', levels', h', hperm⟩ := h.insert_entries hinsert fun _ => hentry
    have hall : (liveKeysOf leaves').Perm
        ((validationCell request.cell).encodedKey :: liveKeysOf leaves) := by
      have hmap := hperm.map (·.encodedKey)
      rwa [map_append, map_entry_key, map_entry_key, map_entry_key] at hmap
    refine ⟨leaves', levels', h', hall.nodup_iff.mpr (nodup_cons.mpr ⟨hkey, hkeys.nodup⟩), ?_⟩
    intro k hk
    rcases mem_cons.mp (hall.mem_iff.mp hk) with rfl | hk
    · exact hlength
    · exact hkeys.even k hk

theorem Arranged.delete_distinct (hkeys : DistinctKeys length leaves)
    (hr : Returns (deleteIndexBtreeCell cell) tree d tree') :
    ∃ leaves' levels', Arranged tree' leaves' levels' ∧ DistinctKeys length leaves' := by
  obtain ⟨leaves', levels', h', hperm⟩ := h.delete_entries hr
  have hall : (liveKeysOf leaves).Perm (cell.encodedKey :: liveKeysOf leaves') := by
    have hmap := hperm.map (·.encodedKey)
    rwa [map_cons, map_entry_key, map_entry_key] at hmap
  exact ⟨leaves', levels', h', (nodup_cons.mp (hall.nodup_iff.mp hkeys.nodup)).2,
    fun k hk => hkeys.even k (hall.mem_iff.mpr (mem_cons_of_mem _ hk))⟩

end

/-- A call that claims nothing, with a short key of the one length that the keys
of the run have. -/
def evenUniqueCall (length : Nat) (tree : IndexBtreePhysicalTree) (call : UniqueCall) : Prop :=
  call.claimsNothing ∧ Headroom tree ∧
    3 * (kCellHeaderBytes + length) ≤ cellCapacity tree.pageSize ∧
    match call with
    | .insertUnique request => request.cell.encodedKey.length = length
    | .delete _ => True

section

variable (h : Arranged tree leaves levels) (hkeys : DistinctKeys length leaves)
  (hcall : evenUniqueCall length tree call)
include h hkeys hcall

/-- Such a call changes nothing when it is refused. -/
theorem Arranged.even_unchanged : RefusesUnchanged call.perform tree := by
  have heven : ∀ k ∈ leaves.flatMap liveCells, k.bytes = kCellHeaderBytes + length := by
    intro k hk
    show kCellHeaderBytes + k.encodedKey.length = _
    rw [hkeys.even k.encodedKey (mem_map_of_mem hk)]
  obtain ⟨hclaims, hroom, hthird, hlength⟩ := hcall
  cases call with
  | delete cell =>
    exact (h.delete_unchanged fun _ => h.ample_of_even heven).bind fun _ _ _ => succeeds_pure
  | insertUnique request =>
    refine RefusesUnchanged.bind ?_ fun _ _ _ => succeeds_pure
    refine reads_get.bind_unchanged fun t hget => ?_
    obtain ⟨rfl, -⟩ := returns_get.mp hget
    split
    · exact refusesUnchanged_throw
    · split
      · exact reads_pure.unchanged
      · refine reads_ofOutcome.bind_unchanged fun _ hprobe => ?_
        obtain ⟨hpassed, -⟩ := returns_ofOutcome.mp hprobe
        refine reads_ofOutcome.bind_unchanged fun candidates hcollect => ?_
        obtain ⟨hcollected, -⟩ := returns_ofOutcome.mp hcollect
        split
        · exact reads_pure.unchanged
        · next hconflict =>
          refine (Succeeds.unchanged ?_).bind fun _ _ _ => succeeds_pure
          have hnew := h.key_free hclaims hpassed hcollected hconflict
          refine h.insert_succeeds (h.spare hroom) hthird
            (fun m hm => Nat.le_of_eq (heven m hm)) rfl ?_ ?_ hpassed
          · show kCellHeaderBytes + request.cell.encodedKey.length ≤ _
            rw [hlength]
          · intro m hm hlocator
            have hsame := (entry_eq_iff (h.keys m hm) (requestProbe_fits hpassed).key).mpr hlocator
            exact hnew m hm (congrArg BtreeEntry.encodedKey hsame)

/-- The step: whether such a call succeeds or is refused, the index stays in
order and its keys distinct. -/
theorem Arranged.after_unique :
    ∃ leaves' levels', Arranged (call.after tree) leaves' levels' ∧
      DistinctKeys length leaves' := by
  rw [UniqueCall.after]
  rcases hrun : call.perform.run.run tree with ⟨reason | ⟨⟩, t⟩
  · obtain rfl := h.even_unchanged hkeys hcall t ⟨reason, hrun⟩
    exact ⟨leaves, levels, h, hkeys⟩
  · have hr : Returns call.perform tree () t := hrun
    cases call with
    | insertUnique request =>
      obtain ⟨r, hinsert⟩ := returns_discard.mp hr
      exact h.insertUnique hkeys hcall.1 hcall.2.2.2 hinsert
    | delete cell =>
      obtain ⟨r, hdelete⟩ := returns_discard.mp hr
      exact h.delete_distinct hkeys hdelete

end

/-! ## Runs -/

/-- The run: the index stays in order and its keys distinct. -/
theorem ReachedByCalls.arranged (h : ReachedByCalls (evenUniqueCall length) tree) :
    ∃ leaves levels, Arranged tree leaves levels ∧ DistinctKeys length leaves := by
  induction h with
  | initialized h =>
    obtain ⟨root, harranged, hnone⟩ := initialize_arranged h
    have hkeys : liveKeysOf [root] = [] := by
      rw [liveKeysOf, flatMap_singleton, hnone]
      rfl
    refine ⟨_, _, harranged, ?_, ?_⟩
    · rw [hkeys]
      exact nodup_nil
    · rw [hkeys]
      exact forall_mem_nil _
  | called _ hadmitted ih =>
    obtain ⟨leaves, levels, harranged, hkeys⟩ := ih
    exact harranged.after_unique hkeys hadmitted

theorem ReachedByCalls.run {admits : IndexBtreePhysicalTree → UniqueCall → Prop}
    {calls : List UniqueCall} (h : ReachedByCalls admits tree)
    (hcalls : Admitted admits UniqueCall.after calls tree) :
    ReachedByCalls admits (calls.foldl (fun tree call => call.after tree) tree) := by
  induction calls generalizing tree with
  | nil => exact h
  | cons call calls ih => exact ih (h.called hcalls.1) hcalls.2

/-- In a run of calls with short keys of one length, refused calls among them,
no two live cells ever have one key. -/
theorem unique_keys_distinct {tree : IndexBtreePhysicalTree} {length : Nat}
    (h : ReachedByCalls (evenUniqueCall length) tree) :
    ∃ keys, liveKeys tree = .ok keys ∧ keys.Nodup := by
  obtain ⟨leaves, levels, harranged, hkeys⟩ := h.arranged
  obtain ⟨result, hscan, hentries⟩ := harranged.full_scan
  have hall : result.locators.map (·.encodedKey) = liveKeysOf leaves := by
    have hmap := congrArg (List.map (·.encodedKey)) hentries
    rw [map_entry_key, map_map] at hmap
    exact hmap
  exact ⟨_, map_eq_ok_iff.mpr ⟨result, hscan, hall⟩, hkeys.nodup⟩

section

instance (call : UniqueCall) : Decidable call.claimsNothing :=
  match call with
  | .insertUnique _ => inferInstanceAs (Decidable (_ ∧ _))
  | .delete _ => inferInstanceAs (Decidable True)

instance (tree : IndexBtreePhysicalTree) : Decidable (Headroom tree) :=
  decidable_of_iff (_ ∧ _ ∧ _) ⟨fun h => ⟨h.1, h.2.1, h.2.2⟩, fun h => ⟨h.1, h.2, h.3⟩⟩

instance (tree : IndexBtreePhysicalTree) (call : UniqueCall) :
    Decidable (anyUniqueCall tree call) := inferInstanceAs (Decidable call.claimsNothing)

instance (tree : IndexBtreePhysicalTree) (call : UniqueCall) :
    Decidable (evenUniqueCall length tree call) :=
  match call with
  | .insertUnique _ => inferInstanceAs (Decidable (_ ∧ _ ∧ _ ∧ _ = _))
  | .delete _ => inferInstanceAs (Decidable (_ ∧ _ ∧ _ ∧ True))

end

/-- Five keys that make two leaves, a key that is taken, a deletion, and the same
deletion again, which is refused. -/
def uniqueCalls : List UniqueCall :=
  [ .insertUnique { cell := sampleCell [1] 1 }, .insertUnique { cell := sampleCell [2] 2 }
  , .insertUnique { cell := sampleCell [3] 3 }, .insertUnique { cell := sampleCell [4] 4 }
  , .insertUnique { cell := sampleCell [5] 5 }, .insertUnique { cell := sampleCell [3] 6 }
  , .delete (sampleCell [2] 2), .delete (sampleCell [2] 2) ]

theorem unique_keys_distinct_run :
    ∃ tree, initializeIndexBtreePhysicalTree sampleIndex 512 = .ok tree ∧
      Admitted (evenUniqueCall 5) UniqueCall.after uniqueCalls tree ∧
      ∃ keys, liveKeys (uniqueCalls.foldl (fun tree call => call.after tree) tree) = .ok keys ∧
        keys.length = 4 ∧ keys.Nodup := by
  obtain ⟨tree, hfresh, hcalls, keys, hkeys, hlength⟩ :
      ∃ tree, initializeIndexBtreePhysicalTree sampleIndex 512 = .ok tree ∧
        Admitted (evenUniqueCall 5) UniqueCall.after uniqueCalls tree ∧
        ∃ keys, liveKeys (uniqueCalls.foldl (fun tree call => call.after tree) tree) = .ok keys ∧
          keys.length = 4 := by
    decide +kernel
  obtain ⟨keys', hkeys', hnodup⟩ :=
    unique_keys_distinct ((ReachedByCalls.initialized hfresh).run hcalls)
  rw [hkeys] at hkeys'
  obtain rfl := Except.ok.inj hkeys'
  exact ⟨tree, hfresh, hcalls, keys, hkeys, hlength, hnodup⟩

/-- A key that leaves a page of 504 bytes room for one short fence. -/
def wideKey : Bytes := 2 :: List.replicate 142 0

def wideCalls : List UniqueCall :=
  [ .insertUnique { cell := sampleCell wideKey 2 }, .insertUnique { cell := sampleCell [3] 3 }
  , .insertUnique { cell := sampleCell [5] 5 }, .insertUnique { cell := sampleCell [6, 0] 6 }
  , .insertUnique { cell := sampleCell [6, 0] 7 } ]

/-- The root holds a wide fence and a short one. A key one byte longer fits its
leaf but not the root: the call is refused and the leaf keeps the cell above its
fence. The next probe for the key passes the leaf over. -/
theorem refused_call_repeats_key : ∃ tree keys,
    ReachedByCalls anyUniqueCall tree ∧ liveKeys tree = .ok keys ∧ ¬keys.Nodup := by
  obtain ⟨tree, hfresh, hcalls, keys, hread, hrepeated⟩ :
      ∃ tree, initializeIndexBtreePhysicalTree sampleIndex 504 = .ok tree ∧
        Admitted anyUniqueCall UniqueCall.after wideCalls tree ∧
        ∃ keys, liveKeys (wideCalls.foldl (fun tree call => call.after tree) tree) = .ok keys ∧
          ¬keys.Nodup := by
    decide +kernel
  exact ⟨_, keys, (ReachedByCalls.initialized hfresh).run hcalls, hread, hrepeated⟩

end ScratchBird.Btree
