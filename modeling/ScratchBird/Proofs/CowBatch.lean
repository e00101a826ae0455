import ScratchBird.Proofs.SerialReplay
import ScratchBird.Storage.CowBatch

/-!
# Who may write a row

`Chained` is what a page keeps through single mutations and batches. A version
that is older than another of the same row has a creator that is committed or
rolled back, or the two have one creator. A writer that selects a base sees this
at the newest version alone: if that one does not make it wait, no older one
would. The previous link of a new version names the base, or the newest version
where there is none, and the new sequence is above both.

An insert on a page that started empty selects no base. Every version such a
page has is then the batch's own, and that is all the order asks for. It does not
keep the sequences apart: a row inserted with a slot of its own and once more
without gets the version 1 twice. The page is refused for it when it is built,
which is why distinctness is read off the built page and not off the staging.
-/

namespace ScratchBird.Storage

open Lib Mga
open List hiding lookup

variable {κ : Type} {pageGeneration pageSize millis n bytes bytes' num index ordinal : Nat}
  {r marked : TransactionInventoryResult}
  {inventory before after completed : LocalTransactionInventory}
  {writer entry e execution : TransactionInventoryEntry} {rowUuid : TypedUuid} {unique : Bool}
  {seen : List (RowDataRecord κ)} {row : RowDataRecord κ} {body : RowDataPageBody κ}
  {c : RowDataRecord κ × Nat} {pages : List (RowDataPageBody κ)}
  {cellBytes : κ → Except DiagnosticRecord Nat}

/-! ## A built page has no version twice -/

def SameVersion (a b : RowDataRecord κ) : Prop :=
  a.rowUuid.value = b.rowUuid.value ∧ a.rowVersion = b.rowVersion

theorem checkRow_fresh (h : checkRow pageGeneration seen row = none) :
    ∀ earlier ∈ seen, ¬SameVersion earlier row := by
  rw [checkRow, guard_eq_none_iff, guard_eq_none_iff] at h
  obtain ⟨_, hvalid, _⟩ := h
  rw [not_or, not_or] at hvalid
  intro earlier hearlier hsame
  refine hvalid.2.2 (mem_map.mpr ⟨earlier, hearlier, ?_⟩)
  rw [hsame.1, hsame.2]

theorem layOutRows_distinct {rows : List (RowDataRecord κ)}
    (h : layOutRows cellBytes pageSize pageGeneration seen bytes rows = .ok bytes') :
    rows.Pairwise (fun a b => ¬SameVersion a b) ∧
      ∀ earlier ∈ seen, ∀ row ∈ rows, ¬SameVersion earlier row := by
  induction rows generalizing seen bytes with
  | nil => exact ⟨List.Pairwise.nil, fun _ _ => nofun⟩
  | cons first rows ih =>
    obtain ⟨hcheck, _, h⟩ := layOutRows_cons h
    obtain ⟨hrest, hfresh⟩ := ih h
    constructor
    · exact pairwise_cons.mpr ⟨hfresh first mem_cons_self, hrest⟩
    · intro earlier hearlier row hrow
      rcases mem_cons.mp hrow with rfl | hrow
      · exact checkRow_fresh hcheck earlier hearlier
      · exact hfresh earlier (mem_cons_of_mem _ hearlier) row hrow

theorem prepareRowDataPage_distinct {built : RowDataPageBody κ}
    (h : prepareRowDataPage cellBytes pageSize body = .ok built) :
    built.rows = assignOrdinalsFrom 0 body.rows ∧
      built.rows.Pairwise fun a b => ¬SameVersion a b := by
  rw [prepareRowDataPage, buildRowDataPageBody] at h
  simp only [rowPageError, guard_eq_ok_iff, bind_eq_ok_iff] at h
  obtain ⟨_, _, _, bytes, hrows, _, _, _, h⟩ := h
  cases h
  exact ⟨rfl, (layOutRows_distinct hrows).1⟩

/-! ## The order of creators -/

/-- What the order of a row's versions is about. -/
structure VersionLink where
  rowUuid : TypedUuid
  localTransactionId : Nat
  rowVersion : Nat
  previousRowVersion : Nat

def RowDataRecord.link (row : RowDataRecord κ) : VersionLink :=
  ⟨row.rowUuid, row.localTransactionId, row.rowVersion, row.previousRowVersion⟩

structure Chained (inventory : LocalTransactionInventory) (versions : List VersionLink) : Prop where
  bounded : ∀ v ∈ versions, v.rowVersion ≤ u64Max
  previous : ∀ v ∈ versions, v.previousRowVersion ≠ 0 → ∃ p ∈ versions, p.rowUuid = v.rowUuid ∧
      p.rowVersion = v.previousRowVersion ∧ p.rowVersion < v.rowVersion
  created : ∀ v ∈ versions, ∃ e ∈ inventory.entries,
    e.localId = v.localTransactionId ∧ (e.state = .active ∨ Resolved e)
  exclusive : ∀ a ∈ versions, ∀ b ∈ versions, a.rowUuid = b.rowUuid → a.rowVersion ≤ b.rowVersion →
    ∀ e ∈ inventory.entries, e.localId = a.localTransactionId →
      Resolved e ∨ a.localTransactionId = b.localTransactionId

theorem chained_nil (inventory : LocalTransactionInventory) : Chained inventory [] :=
  ⟨nofun, nofun, nofun, nofun⟩

section

variable {versions : List VersionLink}

/-- A version is added that no other open transaction stands under. -/
theorem Chained.append (h : Chained inventory versions) {v : VersionLink}
    (hwriter : writer ∈ inventory.entries) (hid : writer.localId = v.localTransactionId)
    (hactive : writer.state = .active) (hbounded : v.rowVersion ≤ u64Max)
    (hprevious : v.previousRowVersion ≠ 0 → ∃ p ∈ versions,
      p.rowUuid = v.rowUuid ∧ p.rowVersion = v.previousRowVersion ∧ p.rowVersion < v.rowVersion)
    (hunder : ∀ w ∈ versions, w.rowUuid = v.rowUuid →
      ∀ e ∈ inventory.entries, e.localId = w.localTransactionId →
        Resolved e ∨ w.localTransactionId = v.localTransactionId)
    (hover : ∀ w ∈ versions, w.rowUuid = v.rowUuid → v.rowVersion ≤ w.rowVersion →
        w.localTransactionId = v.localTransactionId) : Chained inventory (versions ++ [v]) := by
  refine ⟨?_, ?_, ?_, ?_⟩
  · exact forall_mem_append.mpr ⟨h.bounded, forall_mem_singleton.mpr hbounded⟩
  · intro w hw hne
    have hold : ∃ p ∈ versions, p.rowUuid = w.rowUuid ∧ p.rowVersion = w.previousRowVersion ∧
        p.rowVersion < w.rowVersion :=
      forall_mem_append.mpr ⟨h.previous, forall_mem_singleton.mpr hprevious⟩ w hw hne
    obtain ⟨p, hp, hfacts⟩ := hold
    exact ⟨p, mem_append_left _ hp, hfacts⟩
  · refine forall_mem_append.mpr ⟨h.created, forall_mem_singleton.mpr ?_⟩
    exact ⟨writer, hwriter, hid, .inl hactive⟩
  · simp only [forall_mem_append, forall_mem_singleton]
    refine ⟨fun a ha => ⟨h.exclusive a ha, ?_⟩, fun b hb hrow hle _ _ _ => ?_, ?_⟩
    · exact fun hrow _ => hunder a ha hrow
    · exact .inr (hover b hb hrow.symm hle).symm
    · exact fun _ _ _ _ _ => .inr trivial

/-- What a step may do to the transactions: an outcome is kept, and an open
transaction stays open or gets one. -/
structure Keeps (before after : LocalTransactionInventory) : Prop where
  wellFormed : WellFormed after
  kept : ∀ e ∈ before.entries, ∃ e' ∈ after.entries,
    e'.localId = e.localId ∧ (Resolved e → Resolved e') ∧
      (e.state = .active → e'.state = .active ∨ Resolved e')

theorem Chained.keep (h : Chained before versions) (hk : Keeps before after) :
    Chained after versions := by
  refine ⟨h.bounded, h.previous, ?_, ?_⟩
  · intro v hv
    obtain ⟨e, he, hid, hstate⟩ := h.created v hv
    obtain ⟨e', he', hid', hresolved, hactive⟩ := hk.kept e he
    refine ⟨e', he', hid'.trans hid, ?_⟩
    rcases hstate with hs | hs
    · exact hactive hs
    · exact .inr (hresolved hs)
  · intro a ha b hb hrow hle e' he' hid'
    obtain ⟨e, he, hid, -⟩ := h.created a ha
    obtain ⟨e'', he'', hid'', hresolved, -⟩ := hk.kept e he
    obtain rfl : e'' = e' := hk.wellFormed.entry_unique he'' he' ((hid''.trans hid).trans hid'.symm)
    rcases h.exclusive a ha b hb hrow hle e he hid with hr | hsame
    · exact .inl (hresolved hr)
    · exact .inr hsame

theorem resolved_of_state (hwf : WellFormed inventory) (he : e ∈ inventory.entries)
    (hs : e.state = .committed ∨ e.state = .rolledBack) : Resolved e := by
  have hne : e.state ≠ .archived := by rcases hs with hs | hs <;> rw [hs] <;> decide
  rw [Resolved, inventoryVisibilityState_of_not_archived hne ((hwf.entry e he).origin_none hne)]
  exact hs

theorem Settles.keeps (h : Settles before after) (hwf : WellFormed before) :
    Keeps before after := by
  refine ⟨h.wellFormed, ?_⟩
  intro e he
  obtain ⟨e', he', hf⟩ := h.kept e he
  refine ⟨e', he', hf.localId, ?_, ?_⟩
  · intro hresolved
    rcases hf.outcome with heq | ⟨hlive, _⟩
    · rw [heq]
      exact hresolved
    · rw [Resolved, (hwf.entry e he).outcome_of_not_terminal hlive] at hresolved
      rcases hresolved with hs | hs <;> exact absurd hs (ne_of_not_terminal hlive rfl)
  · intro hactive
    rcases hf.outcome with heq | ⟨_, hr | ⟨hc, _⟩⟩
    · rw [heq]
      exact .inl hactive
    · exact .inr (resolved_of_state h.wellFormed he' (.inr hr))
    · exact .inr (resolved_of_state h.wellFormed he' (.inl hc))

/-- Archiving moves the outcome to the origin. -/
theorem keeps_archive (hwf : WellFormed before)
    (h : archiveLocalTransaction before num = .ok r) : Keeps before r.inventory := by
  have hafter := (evolves_archiveLocalTransaction hwf h).wfAfter
  obtain ⟨e, hfind, hedge, hentry, hinventory⟩ := archiveLocalTransaction_ok h
  obtain ⟨he, -⟩ := findEntry_mem hfind
  obtain ⟨hnew, hold⟩ := outcome_archived (hwf.entry e he) hedge
  have hid : r.entry.localId = e.localId := by
    rw [hentry]
    rfl
  have hmem : ∀ x, x ∈ r.inventory.entries ↔ _ := fun _ => hinventory ▸ mem_putEntry_iff hwf he hid
  refine ⟨hafter, ?_⟩
  intro x hx
  by_cases hsame : x.localId = e.localId
  · obtain rfl : x = e := hwf.entry_unique hx he hsame
    refine ⟨r.entry, (hmem _).mpr (.inr rfl), hid, ?_, ?_⟩
    · intro hresolved
      rw [Resolved, hold] at hresolved
      rw [Resolved, hentry, hnew]
      exact hresolved
    · intro hactive
      rw [hactive] at hedge
      cases hedge
  · exact ⟨x, (hmem x).mpr (.inl ⟨hx, hsame⟩), rfl, id, .inl⟩

end

/-! ## The selected base -/

section

variable {rows : List (RowDataRecord κ)} {base : BaseRowSelection κ}

theorem candidatesFor_newest_first : (candidatesFor rows rowUuid).Pairwise fun a b =>
      b.1.rowVersion ≤ a.1.rowVersion := by
  exact List.pairwise_insertionSort _ _

theorem selectCandidate_mem {snapshot : VisibilitySnapshot}
    {candidates : List (RowDataRecord κ × Nat)}
    (h : selectCandidate inventory writer snapshot candidates = .ok (some c)) : c ∈ candidates := by
  induction candidates with
  | nil => cases h
  | cons first rest ih =>
    rw [selectCandidate, bind_eq_ok_iff] at h
    obtain ⟨creator, -, h⟩ := h
    obtain ⟨-, h⟩ := guard_eq_ok_iff.mp h
    split at h
    · exact mem_cons_of_mem _ (ih h)
    dsimp only at h
    split at h
    · split at h
      · cases h
      · cases h
        exact mem_cons_self
    split at h
    · cases h
    · exact mem_cons_of_mem _ (ih h)

/-- The newest version decides: where it does not make the writer wait, no
version of the row is another open transaction's. -/
theorem settled_of_newest (hwf : WellFormed inventory)
    (hchained : Chained inventory (rows.map RowDataRecord.link))
    (h : selectBaseRow rows inventory writer rowUuid = .ok base) :
    ∀ row ∈ rows, row.rowUuid = rowUuid → ∀ e ∈ inventory.entries,
      e.localId = row.localTransactionId →
        Resolved e ∨ row.localTransactionId = writer.localId := by
  rw [selectBaseRow, bind_eq_ok_iff] at h
  obtain ⟨found, hselect, -⟩ := h
  intro row hrow huuid e he hid
  obtain ⟨c, hc, rfl⟩ := mem_zipIdx_of_mem hrow
  have hcandidate := mem_candidatesFor.mpr ⟨hc, huuid⟩
  have hsorted : (candidatesFor rows rowUuid).Pairwise _ := candidatesFor_newest_first
  have hmember : ∀ d ∈ candidatesFor rows rowUuid, d.1 ∈ rows ∧ d.1.rowUuid = rowUuid := by
    intro d hd
    obtain ⟨hmem, hd⟩ := mem_candidatesFor.mp hd
    exact ⟨List.fst_mem_of_mem_zipIdx hmem, hd⟩
  generalize candidatesFor rows rowUuid = candidates at *
  cases candidates with
  | nil => cases hcandidate
  | cons first rest =>
    obtain ⟨hfirst, hfirstUuid⟩ := hmember first mem_cons_self
    have hle : c.1.rowVersion ≤ first.1.rowVersion := by
      rcases mem_cons.mp hcandidate with rfl | hrest
      · exact Nat.le_refl _
      · exact (pairwise_cons.mp hsorted).1 c hrest
    rw [selectCandidate, bind_eq_ok_iff] at hselect
    obtain ⟨creator, hcreator, hselect⟩ := hselect
    obtain ⟨hwait, -⟩ := guard_eq_ok_iff.mp hselect
    obtain ⟨hmem, hcreatorId, -⟩ := rowCreator_ok hcreator
    have hnewest : Resolved creator ∨ creator.localId = writer.localId := by
      obtain ⟨x, hx, hxid, hstate⟩ := hchained.created first.1.link (mem_map_of_mem hfirst)
      obtain rfl : x = creator := hwf.entry_unique hx hmem (hxid.trans hcreatorId.symm)
      rcases hstate with hactive | hresolved
      · rw [waitsForOther, hactive] at hwait
        exact .inr (by simpa using hwait)
      · exact .inl hresolved
    rcases hchained.exclusive c.1.link (mem_map_of_mem hrow)
        first.1.link (mem_map_of_mem hfirst)
        (huuid.trans hfirstUuid.symm) hle e he hid with hr | hsame
    · exact .inl hr
    · have hsame : c.1.localTransactionId = first.1.localTransactionId := hsame
      have heq : e = creator := hwf.entry_unique he hmem ((hid.trans hsame).trans hcreatorId.symm)
      rcases hnewest with hr | hown
      · rw [heq]
        exact .inl hr
      · rw [← hid, heq]
        exact .inr hown

theorem base_of_selectBaseRow (h : selectBaseRow rows inventory writer rowUuid = .ok base)
    (hbase : base.base = some (row, index)) : row ∈ rows ∧ row.rowUuid = rowUuid := by
  rw [selectBaseRow, bind_eq_ok_iff] at h
  obtain ⟨found, hselect, h⟩ := h
  cases h
  obtain rfl : found = some (row, index) := hbase
  obtain ⟨hmem, huuid⟩ := mem_candidatesFor.mp (selectCandidate_mem hselect)
  exact ⟨List.fst_mem_of_mem_zipIdx hmem, huuid⟩

theorem exists_maxRowVersion (h : maxRowVersion rows rowUuid ≠ 0) :
    ∃ row ∈ rows, row.rowUuid = rowUuid ∧ row.rowVersion = maxRowVersion rows rowUuid := by
  rcases le_greatestOf_iff.mp (Nat.le_refl (maxRowVersion rows rowUuid)) with
    hzero | ⟨row, hrow, huuid, hle⟩
  · omega
  · have huuid : row.rowUuid = rowUuid := by simpa using huuid
    exact ⟨row, hrow, huuid, Nat.le_antisymm (le_maxRowVersion hrow huuid) hle⟩

/-- A version with a selected base, on the rows the base was selected from. -/
theorem Chained.append_selected (hwf : WellFormed inventory)
    {rowPage : RowDataPageBody κ} {request : PhysicalMgaCowMutation κ} {versionUuid : Uuid}
    (hchained : Chained inventory (rowPage.rows.map RowDataRecord.link))
    (hwriter : writer ∈ inventory.entries) (hactive : writer.state = .active)
    (h : selectBaseRow rowPage.rows inventory writer request.rowUuid = .ok base)
    (hsequence : (base.maxRowVersion + 1) % (u64Max + 1) ≠ 0) :
    Chained inventory ((relinkRows rowPage.rows base request.rowUuid versionUuid
          ((base.maxRowVersion + 1) % (u64Max + 1)) ++
        [newRowVersion rowPage base request writer.localId versionUuid
          ((base.maxRowVersion + 1) % (u64Max + 1))]).map RowDataRecord.link) := by
  have hmax := maxRowVersion_of_selectBaseRow h
  have hbelow := lt_next_rowVersion
    (fun row hrow => hchained.bounded row.link (mem_map_of_mem hrow)) h hsequence
  rw [map_append, map_relinkRows (fun _ _ _ => rfl)]
  refine hchained.append hwriter rfl hactive ?_ ?_ ?_ ?_
  · exact Nat.le_of_lt_succ (Nat.mod_lt _ (Nat.succ_pos u64Max))
  · intro hprevious
    cases hbase : base.base with
    | none =>
      have heq : (newRowVersion rowPage base request writer.localId
          versionUuid ((base.maxRowVersion + 1) %
            (u64Max + 1))).previousRowVersion = base.maxRowVersion := by
        rw [newRowVersion]
        simp only [hbase]
      have hprevious : base.maxRowVersion ≠ 0 := heq ▸ hprevious
      rw [hmax] at hprevious
      obtain ⟨row, hrow, huuid, hversion⟩ := exists_maxRowVersion hprevious
      refine ⟨row.link, mem_map_of_mem hrow, huuid, ?_, hbelow row hrow huuid⟩
      exact (hversion.trans hmax.symm).trans heq.symm
    | some found =>
      obtain ⟨row, index⟩ := found
      obtain ⟨hrow, huuid⟩ := base_of_selectBaseRow h hbase
      refine ⟨row.link, mem_map_of_mem hrow, huuid, ?_, hbelow row hrow huuid⟩
      show row.rowVersion = RowDataRecord.previousRowVersion _
      rw [newRowVersion]
      simp only [hbase]
  · intro w hw hrow e he hid
    obtain ⟨row, hmem, rfl⟩ := mem_map.mp hw
    exact settled_of_newest hwf hchained h row hmem hrow e he hid
  · intro w hw hrow hle
    obtain ⟨row, hmem, rfl⟩ := mem_map.mp hw
    exact absurd hle (Nat.not_le.mpr (hbelow row hmem hrow))

end

/-! ## The store -/

/-- What a run keeps of one page: it is in order, and has no version twice. -/
structure Ordered (n : Nat) (device : CowDevice κ) : Prop where
  wellFormed : WellFormed device.inventory
  chained : Chained device.inventory ((device.pageRows n).map RowDataRecord.link)
  distinct : (device.pageRows n).Pairwise fun a b => ¬SameVersion a b

theorem pageRows_putPage (device : CowDevice κ) (body : RowDataPageBody κ) (n : Nat) :
    (device.putPage body).pageRows n =
      if n = body.pageNumber then body.rows else device.pageRows n := by
  split
  · next hn => rw [hn, CowDevice.pageRows, lookup_putPage]
  · next hn =>
    have hlookup : lookup RowDataPageBody.pageNumber n (device.putPage body).rowPages =
          lookup RowDataPageBody.pageNumber n device.rowPages := by
      rw [CowDevice.putPage]
      cases lookup RowDataPageBody.pageNumber body.pageNumber device.rowPages with
      | none =>
        rw [lookup, List.find?_append, find?_cons_of_neg (by simpa using Ne.symm hn)]
        exact Option.or_none
      | some old => exact lookup_modify_ne rfl hn
    rw [CowDevice.pageRows, hlookup, CowDevice.pageRows]

section

variable {cellBytes : κ → Except DiagnosticRecord Nat} {device device' : CowDevice κ}

section

variable (h : Ordered n device) {issued : Except DiagnosticRecord TypedUuid}
  {request : PhysicalMgaCowMutation κ}
include h

theorem Ordered.keep (hk : Keeps device.inventory inventory) :
    Ordered n { device with inventory := inventory } :=
  ⟨hk.wellFormed, h.chained.keep hk, h.distinct⟩

theorem Ordered.putPage {written : RowDataPageBody κ}
    (hchained : body.pageNumber = n → Chained device.inventory (body.rows.map RowDataRecord.link))
    (hwritten : prepareRowDataPage cellBytes pageSize body = .ok written) :
    Ordered n (device.putPage written) := by
  obtain ⟨hrows, hdistinct⟩ := prepareRowDataPage_distinct hwritten
  have hnumber := (prepareRowDataPage_ok hwritten).number
  refine ⟨h.wellFormed, ?_, ?_⟩
  · rw [pageRows_putPage]
    split
    · next hn =>
      rw [hrows, map_assignOrdinalsFrom (fun _ _ _ => rfl)]
      exact hchained (hnumber.symm.trans hn.symm)
    · exact h.chained
  · rw [pageRows_putPage]
    split
    · exact hdistinct
    · exact h.distinct

/-! ## Single mutations -/

theorem Ordered.performMutation
    {active : TransactionInventoryEntry} {result : PhysicalMgaCowMutationResult κ}
    (hwriter : active ∈ device.inventory.entries) (hactive : active.state = .active)
    (hcall : Storage.performMutation cellBytes device active execution request
      issued = .ok (device', result)) : Ordered n device' := by
  obtain ⟨rowPage, base, _, written, hread, hbase, happend, rfl, -⟩ := performMutation_written hcall
  obtain ⟨hrows, -, hnumber⟩ := readRowDataPage_ok hread
  obtain ⟨hsequence, versionUuid, hwritten⟩ := appendVersion_written happend
  refine h.putPage ?_ hwritten
  intro hn
  have hchained : Chained device.inventory
      ((advancePageGeneration rowPage).rows.map RowDataRecord.link) := by
    show Chained device.inventory (rowPage.rows.map RowDataRecord.link)
    rw [hrows, ← hnumber, show rowPage.pageNumber = n from hn]
    exact h.chained
  exact hchained.append_selected h.wellFormed hwriter hactive hbase hsequence

theorem Ordered.write (hcall : (CowStep.write request issued millis).apply cellBytes device =
      .ok device') : Ordered n device' := by
  obtain ⟨_, hwrite⟩ := write_applied hcall
  obtain ⟨-, _, writer, _, hopened, hperform⟩ := write_performed hwrite
  obtain ⟨hsettles, hwriter, -, hactive⟩ := hopened.settles h.wellFormed
  exact (h.keep (hsettles.keeps h.wellFormed)).performMutation hwriter hactive hperform

end

end

/-! ## Batches -/

/-- The page as it is staged is in order, and has only the batch's own versions
when it started empty. -/
structure StagedPage.Orderly (n : Nat) (inventory : LocalTransactionInventory)
    (entry : TransactionInventoryEntry) (page : StagedPage κ) : Prop where
  chained : page.pageNumber = n → Chained inventory (page.body.rows.map RowDataRecord.link)
  own : page.startedEmpty = true → ∀ v ∈ page.body.rows.map RowDataRecord.link,
      v.localTransactionId = entry.localId

section

variable {cellBytes : κ → Except DiagnosticRecord Nat} {device : CowDevice κ}
  {page page' : StagedPage κ} {request first : PhysicalMgaCowMutation κ} {newRow : RowDataRecord κ}
  {issued : Except DiagnosticRecord Uuid} {stage stage' : BatchStage κ} {device' : CowDevice κ}

theorem orderly_loadStagedPage (h : Ordered n device)
    (hload : loadStagedPage device device.inventory request = .ok page) :
    page.Orderly n device.inventory entry := by
  rw [loadStagedPage, bind_eq_ok_iff] at hload
  obtain ⟨loaded, hread, hload⟩ := hload
  obtain ⟨hrows, -, hnumber⟩ := readRowDataPage_ok hread
  simp only [cowError, guard_eq_ok_iff, bind_eq_ok_iff] at hload
  obtain ⟨-, -, -, hload⟩ := hload
  cases hload
  refine ⟨?_, ?_⟩
  · intro hn
    show Chained device.inventory (loaded.rows.map RowDataRecord.link)
    rw [hrows, ← hnumber, show loaded.pageNumber = n from hn]
    exact h.chained
  · intro hempty v hv
    have hnil : loaded.rows = [] := List.isEmpty_iff.mp hempty
    have hv : v ∈ loaded.rows.map RowDataRecord.link := hv
    rw [hnil] at hv
    cases hv

theorem orderly_findStagedPage (h : Ordered n device)
    (hstage : ∀ p ∈ stage.pages, p.Orderly n device.inventory entry)
    (hfind : findStagedPage device device.inventory stage.pages request =
      .ok page) : page.Orderly n device.inventory entry := by
  rw [findStagedPage] at hfind
  split at hfind
  · exact orderly_loadStagedPage h hfind
  · next found hlookup =>
    obtain ⟨-, hfind⟩ := guard_eq_ok_iff.mp hfind
    cases hfind
    exact hstage _ (mem_of_lookup hlookup)

theorem orderly_stageInsert (h : page.Orderly n device.inventory entry)
    (hentry : entry ∈ device.inventory.entries)
    (hactive : entry.state = .active) (hempty : page.startedEmpty = true)
    (hinsert : stageInsert unique entry page request issued =
      .ok (page', newRow)) : page'.Orderly n device.inventory entry := by
  rw [stageInsert, cowError, guard_eq_ok_iff] at hinsert
  obtain ⟨-, hinsert⟩ := hinsert
  obtain ⟨versionUuid, -, hinsert⟩ := bind_eq_ok_iff.mp hinsert
  cases hinsert
  have hown := h.own hempty
  refine ⟨?_, ?_⟩
  · intro hn
    rw [map_append]
    refine (h.chained hn).append hentry rfl hactive (show 1 ≤ u64Max by decide) ?_ ?_ ?_
    · intro hprevious
      exact absurd rfl hprevious
    · intro w hw _ e _ _
      exact .inr (hown w hw)
    · intro w hw _ _
      exact hown w hw
  · intro _ v hv
    rw [map_append] at hv
    exact forall_mem_append.mpr ⟨hown, forall_mem_singleton.mpr rfl⟩ v hv

theorem orderly_stageVersion (hwf : WellFormed device.inventory)
    (h : page.Orderly n device.inventory entry) (hentry : entry ∈ device.inventory.entries)
    (hactive : entry.state = .active)
    (hversion : stageVersion device.inventory entry page request issued =
      .ok (page', newRow)) : page'.Orderly n device.inventory entry := by
  rw [stageVersion, bind_eq_ok_iff] at hversion
  obtain ⟨base, hbase, hversion⟩ := hversion
  split at hversion
  · cases hversion
  simp only [cowError, guard_eq_ok_iff, bind_eq_ok_iff] at hversion
  obtain ⟨hsequence, -, -, versionUuid, -, -, hversion⟩ := hversion
  cases hversion
  refine ⟨?_, ?_⟩
  · intro hn
    exact (h.chained hn).append_selected hwf hentry hactive hbase hsequence
  · intro hempty v hv
    rw [map_append, map_relinkRows (fun _ _ _ => rfl)] at hv
    exact forall_mem_append.mpr ⟨h.own hempty, forall_mem_singleton.mpr rfl⟩ v hv

theorem mem_putPage (h : page' ∈ stage.putPage page) : page' = page ∨ page' ∈ stage.pages := by
  rw [BatchStage.putPage] at h
  split at h
  · rcases mem_append.mp h with h | h
    · exact .inr h
    · exact .inl (mem_singleton.mp h)
  · rcases mem_of_mem_modify h with h | ⟨_, _, h⟩
    · exact .inr h
    · exact .inl h

section

variable (h : Ordered n device) (hentry : entry ∈ device.inventory.entries)
  (hactive : entry.state = .active) (hstage : ∀ p ∈ stage.pages, p.Orderly n device.inventory entry)
include h hentry hactive hstage

theorem orderly_stageMutation
    (hcall : stageMutation device device.inventory entry unique first request
      issued stage = .ok stage') : ∀ p ∈ stage'.pages, p.Orderly n device.inventory entry := by
  rw [stageMutation] at hcall
  split at hcall
  · cases hcall
  simp only [cowError, guard_eq_ok_iff, bind_eq_ok_iff] at hcall
  obtain ⟨-, loaded, hfind, hcall⟩ := hcall
  have hloaded := orderly_findStagedPage h hstage hfind
  have hput : ∀ {page : StagedPage κ}, page.Orderly n device.inventory entry →
      ∀ p ∈ stage.putPage page, p.Orderly n device.inventory entry := by
    intro page hpage p hp
    rcases mem_putPage hp with rfl | hp
    · exact hpage
    · exact hstage p hp
  split at hcall
  · next hfast =>
    rw [insertsWithoutBase, Bool.and_eq_true, Bool.and_eq_true] at hfast
    obtain ⟨⟨page, newRow⟩, hinsert, hcall⟩ := bind_eq_ok_iff.mp hcall
    cases hcall
    exact hput (orderly_stageInsert hloaded hentry hactive hfast.1.1 hinsert)
  · obtain ⟨⟨page, newRow⟩, hversion, hcall⟩ := bind_eq_ok_iff.mp hcall
    cases hcall
    exact hput (orderly_stageVersion h.wellFormed hloaded hentry hactive hversion)

theorem orderly_stageMutations {issued : Nat → Except DiagnosticRecord Uuid}
    {requests : List (PhysicalMgaCowMutation κ)}
    (hcall : stageMutations device device.inventory entry unique first issued
      ordinal requests stage = .ok stage') :
    ∀ p ∈ stage'.pages, p.Orderly n device.inventory entry := by
  induction requests generalizing stage ordinal with
  | nil =>
    cases hcall
    exact hstage
  | cons request rest ih =>
    rw [stageMutations, bind_eq_ok_iff] at hcall
    obtain ⟨next, hnext, hcall⟩ := hcall
    exact ih (orderly_stageMutation h hentry hactive hstage hnext) hcall

end

/-- The pages a batch writes are built from staged pages. -/
theorem preparePages_ok {staged : List (StagedPage κ)}
    (h : preparePages cellBytes pageSize staged = .ok pages) :
    ∀ written ∈ pages, ∃ page ∈ staged,
      prepareRowDataPage cellBytes pageSize page.body = .ok written := by
  induction staged generalizing pages with
  | nil =>
    cases h
    exact nofun
  | cons page staged ih =>
    rw [preparePages] at h
    simp only [bind_eq_ok_iff] at h
    obtain ⟨written, hwritten, rest, hrest, h⟩ := h
    cases h
    intro other hother
    rcases mem_cons.mp hother with rfl | hother
    · exact ⟨page, mem_cons_self, hwritten⟩
    · obtain ⟨p, hp, hp'⟩ := ih hrest other hother
      exact ⟨p, mem_cons_of_mem _ hp, hp'⟩

theorem Ordered.putPages (h : Ordered n device)
    (hpages : ∀ written ∈ pages, ∃ body : RowDataPageBody κ, (body.pageNumber = n →
        Chained device.inventory (body.rows.map RowDataRecord.link)) ∧
        prepareRowDataPage cellBytes pageSize body = .ok written) :
    Ordered n (pages.foldl CowDevice.putPage device) := by
  induction pages generalizing device with
  | nil => exact h
  | cons written pages ih =>
    obtain ⟨body, hchained, hwritten⟩ := hpages written mem_cons_self
    exact ih (h.putPage hchained hwritten) fun other hother =>
      hpages other (mem_cons_of_mem _ hother)

theorem admitBatchTransaction_ok (hwf : WellFormed inventory)
    (h : admitBatchTransaction inventory first = .ok entry) :
    findEntry inventory entry.localId = some entry ∧ entry.state = .active ∧
      entry.rollbackOnly = false := by
  rw [admitBatchTransaction, bind_eq_ok_iff] at h
  obtain ⟨existing, hlookup, h⟩ := h
  obtain ⟨-, h⟩ := guard_eq_ok_iff.mp h
  split at h
  · cases h
  next hwritable =>
  cases h
  obtain ⟨hmem, -, -⟩ := lookupLocalTransaction_ok hlookup
  exact ⟨(lookup_eq_some_iff hwf.localIds).mpr ⟨hmem, rfl⟩, writable_of_validate hwritable⟩

theorem prepareBatch_ok {batch : PhysicalMgaCowMutationBatch κ}
    {issued : Nat → Except DiagnosticRecord TypedUuid}
    {prepared : PreparedBatch κ} (h : Ordered n device) (hcall : prepareBatch cellBytes device
      (loadLocalTransactionInventoryFromOpenDevice device) batch issued = .ok prepared) :
    prepared.inventory = device.inventory ∧ findEntry device.inventory prepared.entry.localId =
        some prepared.entry ∧
      prepared.entry.rollbackOnly = false ∧ ∀ written ∈ prepared.pages, ∃ body : RowDataPageBody κ,
        (body.pageNumber = n → Chained device.inventory (body.rows.map RowDataRecord.link)) ∧
          prepareRowDataPage cellBytes device.pageSize body = .ok written := by
  rw [prepareBatch] at hcall
  split at hcall
  · cases hcall
  next first rest hmutations =>
  split at hcall
  · cases hcall
  simp only [cowError, guard_eq_ok_iff, bind_eq_ok_iff] at hcall
  obtain ⟨-, inventory, hload, entry, hentry, -, stage, hstage, pages, hpages, -, hcall⟩ := hcall
  obtain rfl := loadLocalTransactionInventoryFromOpenDevice_ok hload
  cases hcall
  obtain ⟨hfind, hactive, hopen⟩ := admitBatchTransaction_ok h.wellFormed hentry
  have hstaged := orderly_stageMutations h (findEntry_mem hfind).1 hactive (forall_mem_nil _) hstage
  refine ⟨rfl, hfind, hopen, ?_⟩
  intro written hwritten
  obtain ⟨page, hpage, hprepared⟩ := preparePages_ok hpages written hwritten
  rw [mem_insertionSort] at hpage
  exact ⟨page.body, (hstaged page hpage).chained, hprepared⟩

/-- The mark is taken off again, and nothing else was touched. -/
theorem releaseGuard_marked (hfind : findEntry inventory entry.localId = some entry)
    (hopen : entry.rollbackOnly = false)
    (hmark : markLocalTransactionRollbackOnly inventory entry.localId = .ok marked)
    (h : releaseGuard marked.inventory entry = .ok completed) : completed = inventory := by
  obtain ⟨e, hfound, hentry, hinventory⟩ := markLocalTransactionRollbackOnly_ok hmark
  rw [hfind] at hfound
  cases hfound
  have hid : marked.entry.localId = entry.localId := by
    rw [hentry]
    rfl
  have hmarked : findEntry marked.inventory entry.localId = some marked.entry := by
    rw [hinventory]
    exact findEntry_putEntry hfind hid
  rw [releaseGuard, hmarked] at h
  obtain ⟨-, h⟩ := guard_eq_ok_iff.mp h
  injection h with h
  have hback : { marked.entry with rollbackOnly := false } = entry := by rw [hentry, ← hopen]
  rw [← h, hback, hinventory, putEntry_putEntry hid.symm, putEntry]
  rw [modify_lookup hfind]

theorem foldl_putPage_inventory (pages : List (RowDataPageBody κ))
    (device : CowDevice κ) (marked released : LocalTransactionInventory) :
    { pages.foldl CowDevice.putPage { device with inventory := marked } with
      inventory := released } =
      pages.foldl CowDevice.putPage { device with inventory := released } := by
  induction pages generalizing device with
  | nil => rfl
  | cons body pages ih => exact ih (device.putPage body)

theorem Ordered.batch {batch : PhysicalMgaCowMutationBatch κ}
    {issued : Nat → Except DiagnosticRecord TypedUuid} (h : Ordered n device)
    (hcall : (CowCall.batch batch issued).apply cellBytes device =
      .ok device') : Ordered n device' := by
  rw [CowCall.apply, writePhysicalMgaCowUnpublishedMutationBatchToOpenDevice] at hcall
  split at hcall
  swap
  · cases hcall
  obtain rfl := Except.ok.inj hcall
  clear hcall
  next hcall =>
  split at hcall
  · cases hcall
  next prepared hprepare =>
  obtain ⟨hinventory, hfind, hopen, hpages⟩ := prepareBatch_ok h hprepare
  simp only [hinventory] at hcall
  split at hcall
  · cases hcall
  next marked hmark =>
  split at hcall
  · cases hcall
  next guarded hguard =>
  obtain rfl := persist_ok hguard
  split at hcall
  · cases hcall
  next completed hrelease =>
  obtain rfl := releaseGuard_marked hfind hopen hmark hrelease
  split at hcall
  · cases hcall
  next released hpersist =>
  rw [← (Prod.mk.inj hcall).1, persist_ok hpersist, foldl_putPage_inventory]
  exact h.putPages hpages

/-! ## Runs -/

theorem Ordered.call {call : CowCall κ} (h : Ordered n device)
    (hcall : call.apply cellBytes device = .ok device') : Ordered n device' := by
  cases call with
  | single step =>
    have hstep : step.apply cellBytes device = .ok device' := hcall
    cases step with
    | begin readOnly stable uuid millis =>
      obtain ⟨after, rfl, hsettles⟩ := settles_of_begin hstep
      exact h.keep (hsettles.keeps h.wellFormed)
    | finalize request =>
      obtain ⟨after, rfl, hsettles⟩ := settles_of_finalize h.wellFormed hstep
      exact h.keep (hsettles.keeps h.wellFormed)
    | write request issued millis => exact h.write hstep
  | batch request issued => exact h.batch hcall
  | archive localId =>
    rw [CowCall.apply, bind_eq_ok_iff] at hcall
    obtain ⟨inventory, hload, hcall⟩ := hcall
    obtain rfl := loadLocalTransactionInventoryFromOpenDevice_ok hload
    obtain ⟨archived, harchived, hcall⟩ := bind_eq_ok_iff.mp hcall
    rw [persist_ok hcall]
    exact h.keep (keeps_archive h.wellFormed harchived)

theorem Ordered.run {calls : List (CowCall κ)} (h : Ordered n device)
    (hrun : runCowCalls cellBytes device calls = .ok device') : Ordered n device' := by
  induction calls generalizing device with
  | nil =>
    cases hrun
    exact h
  | cons call calls ih =>
    rw [runCowCalls, bind_eq_ok_iff] at hrun
    obtain ⟨next, hnext, hrun⟩ := hrun
    exact ih (h.call hnext) hrun

end

/-- The versions of a row on a page. -/
def CowDevice.versionsOf (device : CowDevice κ) (pageNumber : Nat)
    (rowUuid : TypedUuid) : List (RowDataRecord κ) :=
  (device.pageRows pageNumber).filter fun row => decide (row.rowUuid = rowUuid)

/-- The transaction is committed or rolled back, an archived one by its
origin. -/
def ResolvedIn (inventory : LocalTransactionInventory) (localId : Nat) : Prop :=
  ∃ e, findEntry inventory localId = some e ∧ Resolved e

/-- The older of two versions with an open creator has the newer one's. -/
theorem Ordered.one_open {device : CowDevice κ}
    {a b : RowDataRecord κ} (h : Ordered n device) (ha : a ∈ device.pageRows n)
    (hb : b ∈ device.pageRows n) (huuid : a.rowUuid = b.rowUuid) (hle : a.rowVersion ≤ b.rowVersion)
    (hopen : ¬ResolvedIn device.inventory a.localTransactionId) :
    a.localTransactionId = b.localTransactionId := by
  obtain ⟨e, he, hid, -⟩ := h.chained.created a.link (mem_map_of_mem ha)
  rcases h.chained.exclusive a.link (mem_map_of_mem ha) b.link
      (mem_map_of_mem hb) huuid hle e he hid with hresolved | hsame
  · refine absurd ⟨e, ?_, hresolved⟩ hopen
    exact (lookup_eq_some_iff h.wellFormed.localIds).mpr ⟨he, hid⟩
  · exact hsame

/-- At the end of any run that found the page unwritten: the versions of a row
have different numbers, a previous number is that of an earlier version, and all
versions whose creators are still open have one creator. -/
theorem one_open_writer_per_row (cellBytes : κ → Except DiagnosticRecord Nat)
    (start device : CowDevice κ) (calls : List (CowCall κ)) (pageNumber : Nat)
    (hstart : validateLocalTransactionInventoryStructure start.inventory = none)
    (hfresh : lookup RowDataPageBody.pageNumber pageNumber start.rowPages = none)
    (hrun : runCowCalls cellBytes start calls = .ok device) (rowUuid : TypedUuid) :
    ((device.versionsOf pageNumber rowUuid).map (·.rowVersion)).Nodup ∧
    (∀ row ∈ device.versionsOf pageNumber rowUuid, row.previousRowVersion ≠ 0 →
        ∃ earlier ∈ device.versionsOf pageNumber rowUuid,
          earlier.rowVersion = row.previousRowVersion ∧ earlier.rowVersion < row.rowVersion) ∧
    ∀ a ∈ device.versionsOf pageNumber rowUuid, ∀ b ∈ device.versionsOf pageNumber rowUuid,
        ¬ResolvedIn device.inventory a.localTransactionId →
        ¬ResolvedIn device.inventory b.localTransactionId →
          a.localTransactionId = b.localTransactionId := by
  have hrows : start.pageRows pageNumber = [] := by rw [CowDevice.pageRows, hfresh]
  have hinitial : Ordered pageNumber start := by
    refine ⟨validateStructure_eq_none_iff.mp hstart, ?_, ?_⟩
    · rw [hrows]
      exact chained_nil _
    · rw [hrows]
      exact List.Pairwise.nil
  have hend := hinitial.run hrun
  have hmem : ∀ {row}, row ∈ device.versionsOf pageNumber rowUuid ↔
      row ∈ device.pageRows pageNumber ∧ row.rowUuid = rowUuid := by
    intro row
    rw [CowDevice.versionsOf, mem_filter, decide_eq_true_eq]
  refine ⟨?_, ?_, ?_⟩
  · rw [List.Nodup, pairwise_map]
    refine (hend.distinct.filter _).imp_of_mem ?_
    intro a b ha hb hne heq
    exact hne ⟨by rw [(hmem.mp ha).2, (hmem.mp hb).2], heq⟩
  · intro row hrow hprevious
    obtain ⟨hpage, huuid⟩ := hmem.mp hrow
    obtain ⟨p, hp, hsame, hversion, hlt⟩ := hend.chained.previous row.link
      (mem_map_of_mem hpage) hprevious
    obtain ⟨earlier, hearlier, rfl⟩ := mem_map.mp hp
    exact ⟨earlier, hmem.mpr ⟨hearlier, hsame.trans huuid⟩, hversion, hlt⟩
  · intro a ha b hb hopenA hopenB
    obtain ⟨hpageA, huuidA⟩ := hmem.mp ha
    obtain ⟨hpageB, huuidB⟩ := hmem.mp hb
    have huuid : a.rowUuid = b.rowUuid := huuidA.trans huuidB.symm
    rcases Nat.le_total a.rowVersion b.rowVersion with hle | hle
    · exact hend.one_open hpageA hpageB huuid hle hopenA
    · exact (hend.one_open hpageB hpageA huuid.symm hle hopenB).symm

def batchMutationOf (localId row : UInt8) (slot : Nat)
    (kind : PhysicalMgaCowMutationKind) (cells : List Nat) : PhysicalMgaCowMutation Nat :=
  { relationUuid := ⟨.object, engineUuid 50⟩
    rowUuid := ⟨.row, engineUuid row⟩
    transactionUuid := transactionUuidOf localId
    existingLocalTransactionId := localId.toNat
    useExistingTransaction := true
    kind
    pageNumber := 6
    stableSlotId := slot
    cells }

def batchOf (versions : UInt8) (mutations : List (PhysicalMgaCowMutation Nat)) : CowCall Nat :=
  .batch { mutations := mutations } fun ordinal =>
    .ok ⟨.row, engineUuid (versions + UInt8.ofNat ordinal)⟩

/-- Two rows of one batch on an unwritten page, one of them updated by the same
batch, deleted by a batch that is rolled back, and updated again while the first
transaction is already archived. -/
def batchedCalls : List (CowCall Nat) :=
  [.single (.begin false false (transactionUuidOf 1) 10),
   batchOf 200 [batchMutationOf 1 100 1 .insert [1],
     batchMutationOf 1 110 2 .insert [2], batchMutationOf 1 100 0 .update [3]],
   .single (finalizationOf 1 .commit), .single (.begin false false (transactionUuidOf 2) 11),
   batchOf 210 [batchMutationOf 2 100 0 .deleteRow []], .single (finalizationOf 2 .rollback),
   .archive 1, .single (.begin false false (transactionUuidOf 3) 12),
   .single (mutationOf 3 100 220 .update [4])]

def batchedDevice : CowDevice Nat :=
  (runCowCalls (fun _ => .ok 8) emptyDevice batchedCalls).toOption.getD {}

theorem batched_rows_one_open_writer :
    ((batchedDevice.versionsOf 6 ⟨.row, engineUuid 100⟩).map fun row =>
      (row.rowVersion, row.previousRowVersion)) = [(1, 0), (2, 1), (3, 2), (4, 2)] ∧
    ((batchedDevice.versionsOf 6 ⟨.row, engineUuid 100⟩).map (·.rowVersion)).Nodup := by
  have hreached : runCowCalls (fun _ => .ok 8) emptyDevice batchedCalls = .ok batchedDevice ∧
      ((batchedDevice.versionsOf 6 ⟨.row, engineUuid 100⟩).map fun row =>
        (row.rowVersion, row.previousRowVersion)) = [(1, 0), (2, 1), (3, 2), (4, 2)] := by
    decide +kernel
  refine ⟨hreached.2, ?_⟩
  exact (one_open_writer_per_row (fun _ => .ok 8) emptyDevice batchedDevice
    batchedCalls 6 (by decide) (by decide) hreached.1 ⟨.row, engineUuid 100⟩).1

end ScratchBird.Storage
