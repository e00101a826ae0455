import ScratchBird.Index.BtreeRun
import ScratchBird.Proofs.BtreeDelete

/-!
# Every reached index is in order

The index refines the multiset of its entries as long as no live cell is
inserted whose entry it already holds: every tree reached that way is arranged,
an insertion adds its entry and a deletion takes its entry away. An insertion
that repeats an entry is accepted all the same, and the validator then refuses
the tree.
-/

namespace ScratchBird.Btree

open Lib List

variable {a b cell : IndexBtreeCell} {tree tree' : IndexBtreePhysicalTree} {leaves : Level}
  {levels : List Level} {cells : List IndexBtreeCell}
  {result : IndexBtreePhysicalTreeValidationResult} {ops : List BtreeOperation}
  {op : BtreeOperation} {admits : IndexBtreePhysicalTree → BtreeOperation → Prop}

/-! ## Entries and locators -/

section Entries

variable {r : IndexBtreePhysicalInsertResult}

theorem orderedKey_inj {k l : Index.Bytes} (hk : isOrderPreservingEncodedKey k = true)
    (hl : isOrderPreservingEncodedKey l = true) (h : orderedKey k = orderedKey l) : k = l := by
  obtain ⟨s, rfl⟩ := isOrderPreservingEncodedKey_iff.mp hk
  obtain ⟨t, rfl⟩ := isOrderPreservingEncodedKey_iff.mp hl
  have hrest : s = t := by
    have h := congrArg OrderedKey.bytes h
    rwa [orderedKey, orderedKey, drop_left, drop_left] at h
  rw [hrest]

theorem uuid_eq_of_bytes {u v : Uuid} (h : u.bytes = v.bytes) : u = v := by
  cases v
  subst h
  rfl

/-- Cells whose keys have passed the check are told apart by their locators. -/
theorem entry_eq_iff (ha : isOrderPreservingEncodedKey a.encodedKey = true)
    (hb : isOrderPreservingEncodedKey b.encodedKey = true) :
    a.entry = b.entry ↔ a.locator = b.locator := by
  rw [IndexBtreeCell.entry, IndexBtreeCell.locator, BtreeEntry.mk.injEq, Locator.mk.injEq]
  constructor
  · rintro ⟨hkey, hrow, hversion⟩
    rw [hkey, hrow, hversion]
    exact ⟨rfl, rfl, rfl⟩
  · rintro ⟨hkey, hrow, hversion⟩
    exact ⟨orderedKey_inj ha hb hkey, uuid_eq_of_bytes hrow, uuid_eq_of_bytes hversion⟩

section

variable (h : Arranged tree leaves levels)
include h

theorem Arranged.keys :
    ∀ c ∈ leaves.flatMap liveCells, isOrderPreservingEncodedKey c.encodedKey = true :=
  fun _ hc => (h.live_fits hc).key

theorem Arranged.reachableEntries_eq :
    reachableEntries tree = .ok ((leaves.flatMap liveCells).map (·.entry) : List BtreeEntry) := by
  rw [reachableEntries, h.collectRepairLiveEntries_eq]
  rfl

theorem Arranged.mem_entries (ha : isOrderPreservingEncodedKey a.encodedKey = true) :
    a.entry ∈ (leaves.flatMap liveCells).map (·.entry) ↔
      ∃ m ∈ leaves.flatMap liveCells, m.locator = a.locator := by
  rw [mem_map]
  constructor
  · rintro ⟨m, hm, hentry⟩
    exact ⟨m, hm, (entry_eq_iff (h.keys m hm) ha).mp hentry⟩
  · rintro ⟨m, hm, hlocator⟩
    exact ⟨m, hm, (entry_eq_iff (h.keys m hm) ha).mpr hlocator⟩

end

end Entries

/-! ## One call -/

theorem requestProbe_fits (h : validatePhysicalPageBody (requestProbe tree cell) = .ok ()) :
    CellFits false cell := (validatePhysicalPageBody_ok_iff.mp h).cells cell mem_cons_self

/-- An insertion that succeeds has passed the check of its request. -/
theorem insert_probed (hr : Returns (insertIndexBtreeCell cell) tree r tree') :
    validatePhysicalPageBody (requestProbe tree cell) = .ok () := by
  obtain ⟨u, t, hprobe, -⟩ := returns_bind.mp (returns_guard.mp hr).2
  exact (returns_ofOutcome.mp hprobe).1

theorem insert_fits (hr : Returns (insertIndexBtreeCell cell) tree r tree') :
    CellFits false cell := requestProbe_fits (insert_probed hr)

theorem delete_fits {r : IndexBtreePhysicalDeleteResult}
    (hr : Returns (deleteIndexBtreeCell cell) tree r tree') : CellFits false cell := by
  obtain ⟨u, t, hprobe, -⟩ := returns_bind.mp (returns_guard.mp hr).2
  exact requestProbe_fits (returns_ofOutcome.mp hprobe).1

/-- An insertion adds the entry of a live cell. -/
theorem Arranged.insert_entries (h : Arranged tree leaves levels)
    (hr : Returns (insertIndexBtreeCell cell) tree r tree') (hnew : cell.deleted = false →
      cell.entry ∉ (leaves.flatMap liveCells).map (·.entry)) :
    ∃ leaves' levels', Arranged tree' leaves' levels' ∧
      ((leaves'.flatMap liveCells).map (·.entry)).Perm ((added cell).map (·.entry) ++
          (leaves.flatMap liveCells).map (·.entry)) := by
  have hkey := (insert_fits hr).key
  obtain ⟨leaves', levels', h', -, hperm⟩ := h.insert (fun hlive m hm heq =>
    hnew hlive ((h.mem_entries hkey).mpr ⟨m, hm, heq⟩)) hr
  refine ⟨leaves', levels', h', ?_⟩
  rw [← map_append]
  exact hperm.map _

/-- A deletion takes away the entry of its cell. -/
theorem Arranged.delete_entries {r : IndexBtreePhysicalDeleteResult}
    (h : Arranged tree leaves levels) (hr : Returns (deleteIndexBtreeCell cell) tree r tree') :
    ∃ leaves' levels', Arranged tree' leaves' levels' ∧
      ((leaves.flatMap liveCells).map (·.entry)).Perm
        (cell.entry :: (leaves'.flatMap liveCells).map (·.entry)) := by
  have hkey := (delete_fits hr).key
  obtain ⟨x, leaves', levels', hx, h', hperm⟩ := h.delete hr
  have hentry : x.entry = cell.entry := by
    refine (entry_eq_iff (h.keys x ?_) hkey).mpr hx
    exact hperm.mem_iff.mpr mem_cons_self
  refine ⟨leaves', levels', h', ?_⟩
  rw [← hentry]
  exact hperm.map (·.entry)

theorem checkNeighbours_chain {bad : IndexBtreeCell → IndexBtreeCell → Bool}
    {code key : String} {i : Nat} (h : checkNeighbours bad code key i cells = .ok ()) :
    cells.IsChain fun a b => bad a b = false := by
  induction cells generalizing i with
  | nil => exact List.IsChain.nil
  | cons a cells ih =>
    cases cells with
    | nil => exact List.IsChain.singleton a
    | cons b cells =>
      rw [checkNeighbours, indexPageError, guard_eq_ok_iff] at h
      refine List.isChain_cons_cons.mpr ⟨?_, ih h.2⟩
      simpa using h.1

section

variable (hkeys : ∀ c ∈ cells, isOrderPreservingEncodedKey c.encodedKey = true)
  (h : checkDuplicates cells = .ok ())
include hkeys h

/-- Where the check for duplicates passes, sorted entries ascend. Equal entries
would stand side by side. -/
theorem ascending_of_checkDuplicates : Ascending (sortCells cells) := by
  have hchain := List.isChain_iff_forall_rel_of_append_cons_cons.mp (checkNeighbours_chain h)
  have hsorted := List.isChain_iff_forall_rel_of_append_cons_cons.mp
    (@sortCells_ordered cells).isChain
  have hkey : ∀ c ∈ sortCells cells, isOrderPreservingEncodedKey c.encodedKey = true := fun c hc =>
    hkeys c (sortCells_perm.mem_iff.mp hc)
  have hstrict : (sortCells cells).IsChain fun a b => a.locator < b.locator := by
    refine List.isChain_iff_forall_rel_of_append_cons_cons.mpr ?_
    intro a b front back hsplit
    refine lt_of_le_of_ne (hsorted hsplit) fun heq => ?_
    have hentry := (entry_eq_iff (hkey a (by rw [hsplit]; simp))
      (hkey b (by rw [hsplit]; simp))).mpr heq
    obtain ⟨hk, hrow, hversion⟩ := BtreeEntry.mk.inj hentry
    have hsame : sameLiveEntry a b = true := by
      rw [sameLiveEntry, hk, hrow, hversion]
      simp
    exact absurd (hchain hsplit) (by simp [hsame])
  exact List.isChain_iff_pairwise.mp hstrict

theorem nodup_of_checkDuplicates : (cells.map (·.entry)).Nodup := by
  have hasc : (sortCells cells).Pairwise fun a b => a.entry ≠ b.entry := by
    refine (ascending_of_checkDuplicates hkeys h).imp ?_
    intro a b hab heq
    refine absurd hab (not_lt.mpr (le_of_eq ?_))
    obtain ⟨hkey, hrow, hversion⟩ := BtreeEntry.mk.inj heq
    rw [IndexBtreeCell.locator, IndexBtreeCell.locator, hkey, hrow, hversion]
  have hnodup : ((sortCells cells).map (·.entry)).Nodup := pairwise_map.mpr hasc
  exact (sortCells_perm.map _).nodup_iff.mp hnodup

end

/-- What an accepted tree has passed. -/
theorem validate_ok (h : validateIndexBtreePhysicalTree tree = .ok result) :
    (Storage.isTypedEngineIdentity tree.indexUuid .object = true ∧
      checkImages tree [] tree.pages = .ok ()) ∧
    ∃ content, collectFromRoot tree = .ok content ∧ checkSiblings 0 content.leaves = .ok () ∧
      checkGlobalOrder content.liveEntries = .ok () ∧
      checkDuplicates content.liveEntries = .ok () := by
  rw [validateIndexBtreePhysicalTree, indexPageError, indexPageError,
    guard_eq_ok_iff, guard_eq_ok_iff] at h
  obtain ⟨-, hindex, h⟩ := h
  obtain ⟨⟨⟩, himages, h⟩ := bind_eq_ok_iff.mp h
  obtain ⟨content, hcontent, h⟩ := bind_eq_ok_iff.mp h
  obtain ⟨⟨⟩, hsiblings, h⟩ := bind_eq_ok_iff.mp h
  obtain ⟨-, -, h⟩ := bind_eq_ok_iff.mp h
  obtain ⟨⟨⟩, horder, h⟩ := bind_eq_ok_iff.mp h
  obtain ⟨⟨⟩, hduplicates, -⟩ := bind_eq_ok_iff.mp h
  exact ⟨⟨by simpa using hindex, himages⟩, content, hcontent, hsiblings, horder, hduplicates⟩

/-- A tree that is accepted with the new entry held it only once. -/
theorem entries_nodup_of_validate (h : Arranged tree leaves levels)
    (hr : Returns (insertIndexBtreeCell cell) tree r tree')
    (hvalid : validateIndexBtreePhysicalTree tree' = .ok result)
    (hentries : reachableEntries tree' = .ok (cell.entry ::ₘ
      ((leaves.flatMap liveCells).map (·.entry) : List BtreeEntry))) :
    (cell.entry ::ₘ ((leaves.flatMap liveCells).map (·.entry) : Multiset BtreeEntry)).Nodup := by
  obtain ⟨-, content, hcontent, -, -, hduplicates⟩ := validate_ok hvalid
  rw [reachableEntries, collectRepairLiveEntries, hcontent] at hentries
  have hsame : ((content.liveEntries.map (·.entry) : List BtreeEntry) :
      Multiset BtreeEntry) = cell.entry ::ₘ
        ((leaves.flatMap liveCells).map (·.entry) : List BtreeEntry) := Except.ok.inj hentries
  rw [← hsame]
  refine nodup_of_checkDuplicates ?_ hduplicates
  intro c hc
  have hmem : c.entry ∈ ((content.liveEntries.map (·.entry) : List BtreeEntry) :
      Multiset BtreeEntry) := mem_map_of_mem hc
  rw [hsame, Multiset.mem_cons] at hmem
  rcases hmem with hcell | hmem
  · have hkey : c.encodedKey = cell.encodedKey := congrArg (·.encodedKey) hcell
    rw [hkey]
    exact (insert_fits hr).key
  · obtain ⟨m, hm, heq⟩ := mem_map.mp (Multiset.mem_coe.mp hmem)
    have hkey : m.encodedKey = c.encodedKey := congrArg (·.encodedKey) heq
    rw [← hkey]
    exact h.keys m hm

/-! ## Whole runs -/

/-- The step: a call that repeats no entry keeps the index in order, and an entry
it brings in is that of the cell it inserts. -/
theorem Arranged.perform (h : Arranged tree leaves levels)
    (hnew : insertsNewEntries tree op) (hr : Returns op.perform tree () tree') :
    ∃ leaves' levels', Arranged tree' leaves' levels' ∧
      ∀ e ∈ (leaves'.flatMap liveCells).map (·.entry),
        e ∈ (leaves.flatMap liveCells).map (·.entry) ∨
          ∃ cell, op = .insert cell ∧ e = cell.entry := by
  cases op with
  | insert cell =>
    obtain ⟨r, hr⟩ := returns_discard.mp hr
    obtain ⟨leaves', levels', h', hperm⟩ := h.insert_entries hr fun hlive =>
      hnew hlive _ h.reachableEntries_eq
    refine ⟨leaves', levels', h', fun e he => ?_⟩
    rcases mem_append.mp (hperm.mem_iff.mp he) with hadded | hold
    · obtain ⟨m, hm, rfl⟩ := mem_map.mp hadded
      exact .inr ⟨cell, rfl, congrArg _ (List.mem_singleton.mp (mem_filter.mp hm).1)⟩
    · exact .inl hold
  | delete cell =>
    obtain ⟨r, hr⟩ := returns_discard.mp hr
    obtain ⟨leaves', levels', h', hperm⟩ := h.delete_entries hr
    exact ⟨leaves', levels', h', fun e he => .inl (hperm.mem_iff.mpr (mem_cons_of_mem _ he))⟩

/-- The run: every tree reached without repeating an entry is in order, and what
holds of every inserted entry holds of the entries it has. -/
theorem Reached.arranged_of {P : BtreeEntry → Prop} (h : Reached admits tree)
    (hadmits : ∀ t op, admits t op →
      insertsNewEntries t op ∧ ∀ cell, op = .insert cell → P cell.entry) :
    ∃ leaves levels, Arranged tree leaves levels ∧
      ∀ e ∈ (leaves.flatMap liveCells).map (·.entry), P e := by
  induction h with
  | initialized h =>
    obtain ⟨root, harranged, hroot⟩ := initialize_arranged h
    refine ⟨_, _, harranged, ?_⟩
    rw [flatMap_singleton, hroot]
    exact forall_mem_nil _
  | performed _ hop hr ih =>
    obtain ⟨leaves, levels, harranged, hall⟩ := ih
    obtain ⟨hnew, hinserted⟩ := hadmits _ _ hop
    obtain ⟨leaves', levels', h', hentries⟩ := harranged.perform hnew hr
    refine ⟨leaves', levels', h', fun e he => ?_⟩
    obtain hold | ⟨cell, hcell, rfl⟩ := hentries e he
    · exact hall e hold
    · exact hinserted cell hcell

theorem Reached.arranged (h : Reached insertsNewEntries tree) :
    ∃ leaves levels, Arranged tree leaves levels := by
  obtain ⟨leaves, levels, harranged, -⟩ :=
    h.arranged_of (P := fun _ => True) fun _ _ hnew => ⟨hnew, fun _ _ => trivial⟩
  exact ⟨leaves, levels, harranged⟩

theorem reached_of_runOperations (h : Reached admits tree)
    (hops : Admitted admits BtreeOperation.after ops tree)
    (hr : runOperations ops tree = .ok tree') : Reached admits tree' := by
  induction ops generalizing tree with
  | nil =>
    cases hr
    exact h
  | cons op ops ih =>
    obtain ⟨hop, hops⟩ := hops
    rw [runOperations] at hr
    split at hr
    · next t hrun =>
      rw [BtreeOperation.after, hrun] at hops
      exact ih (h.performed hop hrun) hops hr
    · cases hr

theorem reached_of_admitted {index : TypedUuid} {pageSize : UInt32}
    (hops : ∀ fresh, initializeIndexBtreePhysicalTree index pageSize = .ok fresh →
      Admitted admits BtreeOperation.after ops fresh)
    (h : runFrom index pageSize ops = .ok tree) : Reached admits tree := by
  obtain ⟨fresh, hfresh, hr⟩ := bind_eq_ok_iff.mp h
  exact reached_of_runOperations (.initialized hfresh) (hops fresh hfresh) hr

theorem reached_of_runFrom {index : TypedUuid} {pageSize : UInt32}
    (h : runFrom index pageSize ops = .ok tree) : Reached anyCall tree :=
  reached_of_admitted (fun _ _ => admitted_of_forall fun _ _ => trivial) h

instance (tree : IndexBtreePhysicalTree) (op : BtreeOperation) :
    Decidable (insertsNewEntries tree op) :=
  match op with
  | .insert _ => inferInstanceAs (Decidable (_ → ∀ _, _ → _))
  | .delete _ => inferInstanceAs (Decidable True)

/-- Five insertions, of which the last divides the root leaf, and a deletion. -/
def sampleRun : List BtreeOperation :=
  [.insert (sampleCell [1] 1), .insert (sampleCell [2] 2), .insert (sampleCell [3] 3),
   .insert (sampleCell [4, 0, 0] 4), .insert (sampleCell [5] 5), .delete (sampleCell [2] 2)]

def sampleCells : List IndexBtreeCell :=
  [sampleCell [1] 1, sampleCell [3] 3, sampleCell [4, 0, 0] 4, sampleCell [5] 5]

theorem sampleRun_admitted : ∀ fresh, initializeIndexBtreePhysicalTree sampleIndex 512 = .ok fresh →
    Admitted insertsNewEntries BtreeOperation.after sampleRun fresh := by
  decide +kernel

/-- The tree of the run has two leaves. It is imported as it is, takes another cell,
refuses one that no page has room for and loses a cell. -/
theorem sampleRun_tree : ∃ tree, runFrom sampleIndex 512 sampleRun = .ok tree ∧
    tree.pageSize = 512 ∧ collectRepairLiveEntries tree = .ok sampleCells ∧
    (·.reachableLeafPageCount) <$> validateIndexBtreePhysicalTree tree = .ok 2 ∧
    (∃ image, importIndexBtreePhysicalTreeImage tree = .ok image ∧ image = tree) ∧
    ((insertIndexBtreeCell (sampleCell [6] 6)).run.run tree).1.isOk = true ∧
    ((insertIndexBtreeCell (sampleCell (List.replicate 230 6) 6)).run.run tree).1.isOk = false ∧
    ((deleteIndexBtreeCell (sampleCell [3] 3)).run.run tree).1.isOk = true := by
  decide +kernel

theorem reachableEntries_of_collect (h : collectRepairLiveEntries tree = .ok cells) :
    reachableEntries tree = .ok (cells.map (·.entry) : List BtreeEntry) := by
  rw [reachableEntries, h]
  rfl

/-- The index refines the multiset of its entries. Of a live cell the tree is
accepted with its entry added exactly when the entry is new. -/
theorem reached_refines_entries {tree : IndexBtreePhysicalTree}
    (h : Reached insertsNewEntries tree) :
    (∃ result, validateIndexBtreePhysicalTree tree = .ok result) ∧
      ∃ entries, reachableEntries tree = .ok entries ∧ (∀ cell r tree', cell.deleted = false →
          Returns (insertIndexBtreeCell cell) tree r tree' →
            ((∃ result, validateIndexBtreePhysicalTree tree' = .ok result) ∧
              reachableEntries tree' = .ok (cell.entry ::ₘ entries) ↔ cell.entry ∉ entries)) ∧
        ∀ cell r tree', Returns (deleteIndexBtreeCell cell) tree r tree' →
          (∃ result, validateIndexBtreePhysicalTree tree' = .ok result) ∧ cell.entry ∈ entries ∧
            reachableEntries tree' = .ok (entries.erase cell.entry) := by
  obtain ⟨leaves, levels, harranged⟩ := h.arranged
  refine ⟨harranged.validate, _, harranged.reachableEntries_eq, ?_, ?_⟩
  · intro cell r tree' hlive hr
    constructor
    · rintro ⟨⟨result, hvalid⟩, hentries⟩
      have hnodup := entries_nodup_of_validate harranged hr hvalid hentries
      exact (Multiset.nodup_cons.mp hnodup).1
    · intro hnew
      obtain ⟨leaves', levels', h', hperm⟩ := harranged.insert_entries hr fun _ => hnew
      refine ⟨h'.validate, ?_⟩
      have hadded : (added cell).map (·.entry) = [cell.entry] := by
        rw [added, List.filter_singleton, hlive]
        rfl
      rw [hadded] at hperm
      rw [h'.reachableEntries_eq, Multiset.coe_eq_coe.mpr hperm]
      rfl
  · intro cell r tree' hr
    obtain ⟨leaves', levels', h', hperm⟩ := harranged.delete_entries hr
    refine ⟨h'.validate, hperm.mem_iff.mpr mem_cons_self, ?_⟩
    rw [h'.reachableEntries_eq, Multiset.coe_eq_coe.mpr hperm,
      ← Multiset.cons_coe, Multiset.erase_cons_head]

theorem sampleRun_refines_entries : ∃ tree, runFrom sampleIndex 512 sampleRun = .ok tree ∧
    (∃ result, validateIndexBtreePhysicalTree tree = .ok result) ∧
    reachableEntries ((insertIndexBtreeCell (sampleCell [6] 6)).run.run tree).2 =
      .ok ((sampleCell [6] 6).entry ::ₘ (sampleCells.map (·.entry) : List BtreeEntry)) ∧
    reachableEntries ((deleteIndexBtreeCell (sampleCell [3] 3)).run.run tree).2 =
      .ok ((sampleCells.map (·.entry)).erase (sampleCell [3] 3).entry : List BtreeEntry) := by
  obtain ⟨tree, hrun, -, hcells, -, -, hinserts, -, hdeletes⟩ := sampleRun_tree
  obtain ⟨hvalid, entries, hentries, hinsert, hdelete⟩ :=
    reached_refines_entries (reached_of_admitted sampleRun_admitted hrun)
  rw [reachableEntries_of_collect hcells] at hentries
  cases hentries
  obtain ⟨r, hr⟩ := returns_of_isOk hinserts
  obtain ⟨r', hr'⟩ := returns_of_isOk hdeletes
  exact ⟨tree, hrun, hvalid, ((hinsert _ r _ rfl hr).mpr (by decide)).2, (hdelete _ r' _ hr').2.2⟩

/-- A cell inserted twice is accepted, and the validator refuses the tree. -/
theorem repeated_entry_refused : ∃ tree, Reached anyCall tree ∧
    ∀ result, validateIndexBtreePhysicalTree tree ≠ .ok result := by
  obtain ⟨tree, hrun, hisOk⟩ : ∃ tree, runFrom sampleIndex 384
      [.insert (sampleCell [1] 1), .insert (sampleCell [1] 1)] = .ok tree ∧
        (validateIndexBtreePhysicalTree tree).isOk = false := by
    decide +kernel
  refine ⟨tree, reached_of_runFrom hrun, fun result hvalid => ?_⟩
  rw [hvalid] at hisOk
  exact Bool.noConfusion hisOk

end ScratchBird.Btree
