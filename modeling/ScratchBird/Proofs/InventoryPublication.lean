import ScratchBird.Proofs.CowStore
import ScratchBird.Proofs.RetentionGaps
import ScratchBird.Storage.InventoryPublication

/-!
# A batch is never half committed

The batch function leaves the device in one of many states when it is cut short:
in the middle of the first publication, between two row pages, or in the second
publication, and each of the two publications is itself cut in pages. Two facts
cover them all. A publication writes no row page, so the row pages that are
written lie between the two; and while they are being written the carrier says
`committed` with the mark in it, which no write of a row page can change. A
commit from there is refused.
-/

namespace ScratchBird.Storage.Device

open Lib Mga Storage
open List hiding lookup

variable {κ α : Type} {u : Unit} {wanted root : Bool} {phase : PublishPhase}
  {generation pageNumber pageSize num millis : Nat} {start : PublicationStart}
  {inventory a old : LocalTransactionInventory} {policy : InventoryPageSyncPolicy}
  {journal stored : PublishJournal} {issued : Nat → Except DiagnosticRecord TypedUuid}
  {faults : Nat → Option DiagnosticRecord} {write : Option (DeviceWrite κ)} {disk : CowDisk κ}
  {ws : List (DeviceWrite κ)} {pages : List (RowDataPageBody κ)}
  {request : PhysicalMgaCowMutationBatch κ} {prepared : PreparedBatch κ}
  {cellBytes : κ → Except DiagnosticRecord Nat}

/-! ## Traces -/

/-- From one point of a call to a later one, only writes of this kind. -/
def Logs (p : DeviceWrite κ → Prop) (s s' : Session κ) : Prop :=
  ∃ ws, (∀ w ∈ ws, p w) ∧ s'.writes = s.writes ++ ws ∧ s'.disk = s.disk.after ws

theorem after_append (disk : CowDisk κ) (ws vs : List (DeviceWrite κ)) :
    disk.after (ws ++ vs) = (disk.after ws).after vs := foldl_append

instance (p : DeviceWrite κ → Prop) : Std.Refl (Logs p) where
  refl _ := ⟨[], nofun, (append_nil _).symm, rfl⟩

instance (p : DeviceWrite κ → Prop) : IsTrans (Session κ) (Logs p) where
  trans := by
    rintro a b c ⟨ws, hws, hwrites, hdisk⟩ ⟨vs, hvs, hwrites', hdisk'⟩
    refine ⟨ws ++ vs, ?_, ?_, ?_⟩
    · intro w hw
      exact (mem_append.mp hw).elim (hws w) (hvs w)
    · rw [hwrites', hwrites, append_assoc]
    · rw [hdisk', hdisk, after_append]

section

variable {p : DeviceWrite κ → Prop} {s s' : Session κ}

theorem run_operate : (operate faults write).run.run s = s.operate faults write :=
  rfl

theorem returns_operate (h : Returns (operate faults write) s u s') : s.perform write = s' := by
  rw [Returns, run_operate, Session.operate] at h
  cases hfault : faults s.operations with
  | none =>
    rw [hfault] at h
    exact (Prod.mk.inj h).2
  | some diagnostic =>
    rw [hfault] at h
    exact absurd (Prod.mk.inj h).1 (by simp)

theorem moves_operate (h : ∀ w ∈ write, p w) : Moves (Logs p) (operate faults write) := by
  intro s
  rw [run_operate, Session.operate]
  cases faults s.operations with
  | none => exact ⟨write.toList, by simpa using h, rfl, rfl⟩
  | some diagnostic => exact ⟨[], nofun, (append_nil _).symm, rfl⟩

/-! ## Publications -/

/-- The row-page image a write puts on the device. -/
def DeviceWrite.rowImage : DeviceWrite κ → Option (RowDataPageBody κ)
  | .rowPage body => some body
  | .publication _ | .inventoryPageHeader _ | .inventoryPage _ => none

def rowImages (writes : List (DeviceWrite κ)) : List (RowDataPageBody κ) :=
  writes.filterMap DeviceWrite.rowImage

abbrev Inventorial (w : DeviceWrite κ) : Prop := w.rowImage = none

theorem moves_sync : Moves (Logs p) (sync faults) := moves_operate nofun

theorem moves_writeAt {w : DeviceWrite κ} (h : p w) : Moves (Logs p) (writeAt faults w) :=
  moves_operate fun v hv => by
    cases hv
    exact h

theorem moves_syncWhen : Moves (Logs p) (syncWhen faults wanted) := by
  rw [syncWhen]
  split
  · exact moves_sync
  · exact reads_pure.moves

theorem moves_persistPublishJournal :
    Moves (Logs Inventorial) (persistPublishJournal faults phase generation start inventory :
        DeviceM κ Unit) := by
  refine reads_ofOutcome.moves.bind fun journal => ?_
  exact (moves_writeAt (p := Inventorial) rfl).bind fun _ => moves_sync

theorem moves_writeInventoryPageHeader :
    Moves (Logs Inventorial)
      (writeInventoryPageHeader faults root pageNumber : DeviceM κ Unit) := by
  rw [writeInventoryPageHeader]
  split
  · exact reads_pure.moves
  · exact moves_writeAt rfl

theorem moves_writeInventoryPages {pages : List TransactionInventoryPageBody} :
    Moves (Logs Inventorial) (writeInventoryPages faults policy pageSize root pages :
        DeviceM κ Unit) := by
  induction pages generalizing root with
  | nil => exact reads_pure.moves
  | cons page pages ih =>
    refine moves_writeInventoryPageHeader.bind fun _ => ?_
    refine reads_ofOutcome.moves.bind fun built => ?_
    exact (moves_writeAt (p := Inventorial) rfl).bind fun _ => moves_syncWhen.bind fun _ => ih

theorem moves_publishInventory :
    Moves (Logs Inventorial) (publishInventory faults policy start inventory :
        DeviceM κ LocalTransactionInventory) := by
  refine reads_get.moves.bind fun _ => moves_persistPublishJournal.bind fun _ => ?_
  refine moves_writeInventoryPages.bind fun _ => moves_syncWhen.bind fun _ => ?_
  exact moves_persistPublishJournal.bind fun _ => reads_pure.moves

theorem moves_persistOnce :
    Moves (Logs Inventorial) (persistOnce faults policy inventory :
        DeviceM κ LocalTransactionInventory) :=
  reads_get.moves.bind fun _ => reads_ofOutcome.moves.bind fun _ => moves_publishInventory

/-- A publication writes no row page. -/
theorem moves_persist :
    Moves (Logs Inventorial) (persistLocalTransactionInventoryToOpenDevice faults policy inventory :
        DeviceM κ LocalTransactionInventory) := by
  refine reads_get.moves.bind fun _ => reads_ofOutcome.moves.bind fun _ => ?_
  split
  · split
    · exact moves_throw
    · exact reads_ofOutcome.moves.bind fun _ => moves_persistOnce.bind fun _ => moves_persistOnce
  · exact moves_publishInventory

/-- The carrier decided for this inventory. -/
def Decided (disk : CowDisk κ) (inventory : LocalTransactionInventory) : Prop :=
  ∃ journal, disk.journal = some journal ∧ journal.phase = .committed ∧
    journal.newInventory = inventory

theorem buildPublishJournal_ok
    (h : buildPublishJournal phase generation start inventory = .ok journal) :
    (validPublicationInventory start.old = true ∧
      validPublicationInventory inventory = true ∧ start.oldGeneration ≠ 0 ∧
      start.oldGeneration < generation) ∧
      journal = ⟨phase, generation, start.oldGeneration, start.old, inventory⟩ := by
  rw [buildPublishJournal, storePageError, guard_eq_ok_iff] at h
  simp only [not_or, not_not, not_le] at h
  obtain ⟨⟨-, -, hold, hnew, hzero, hlt⟩, h⟩ := h
  exact ⟨⟨hold, hnew, hzero, hlt⟩, (Except.ok.inj h).symm⟩

theorem returns_persistPublishJournal
    (h : Returns (persistPublishJournal faults phase generation start inventory) s u s') :
    ∃ journal, buildPublishJournal phase generation start inventory =
        .ok journal ∧ s'.disk = { s.disk with journal := some journal } := by
  obtain ⟨journal, hbuilt, h⟩ := returns_ofOutcome_bind.mp h
  obtain ⟨_, t, hwrite, hsync⟩ := returns_bind.mp h
  refine ⟨journal, hbuilt, ?_⟩
  rw [← returns_operate hsync, ← returns_operate hwrite]
  rfl

theorem returns_publishInventory
    (h : Returns (publishInventory faults policy start inventory) s a s') :
    a = inventory ∧ ∃ journal,
      buildPublishJournal .committed (start.watermark + 1) start inventory =
        .ok journal ∧ s'.disk.journal = some journal := by
  obtain ⟨_, _, -, h⟩ := returns_bind.mp h
  obtain ⟨_, _, -, h⟩ := returns_bind.mp h
  obtain ⟨_, _, -, h⟩ := returns_bind.mp h
  obtain ⟨_, _, -, h⟩ := returns_bind.mp h
  obtain ⟨_, _, hjournal, h⟩ := returns_bind.mp h
  obtain ⟨rfl, rfl⟩ := returns_pure.mp h
  obtain ⟨journal, hbuild, hdisk⟩ := returns_persistPublishJournal hjournal
  exact ⟨rfl, journal, hbuild, by rw [hdisk]⟩

theorem decided_of_persistOnce (h : Returns (persistOnce faults policy inventory) s a s') :
    a = inventory ∧ Decided s'.disk inventory := by
  obtain ⟨_, _, -, h⟩ := returns_bind.mp h
  obtain ⟨_, _, -, h⟩ := returns_bind.mp h
  obtain ⟨ha, journal, hbuild, hdisk⟩ := returns_publishInventory h
  obtain ⟨-, rfl⟩ := buildPublishJournal_ok hbuild
  exact ⟨ha, _, hdisk, rfl, rfl⟩

/-- A publication that returns has decided for its inventory. -/
theorem decided_of_persist (h : Returns (persistLocalTransactionInventoryToOpenDevice faults policy
      inventory) s a s') : a = inventory ∧ Decided s'.disk inventory := by
  obtain ⟨_, _, -, h⟩ := returns_bind.mp h
  obtain ⟨start, _, -, h⟩ := returns_bind.mp h
  split at h
  · split at h
    · exact absurd h returns_throw.mp
    · obtain ⟨_, _, -, h⟩ := returns_bind.mp h
      obtain ⟨_, _, -, h⟩ := returns_bind.mp h
      exact decided_of_persistOnce h
  · obtain ⟨ha, journal, hbuild, hdisk⟩ := returns_publishInventory h
    obtain ⟨-, rfl⟩ := buildPublishJournal_ok hbuild
    exact ⟨ha, _, hdisk, rfl, rfl⟩

/-- Row pages do not touch the carrier. -/
theorem Decided.after_rows (h : Decided disk inventory) (hws : ∀ w ∈ ws, w.rowImage.isSome = true) :
    Decided (disk.after ws) inventory := by
  induction ws generalizing disk with
  | nil => exact h
  | cons w ws ih =>
    refine ih ?_ (forall_mem_cons.mp hws).2
    have hrow := hws w mem_cons_self
    cases w with
    | rowPage body => exact h
    | publication journal => exact Bool.noConfusion hrow
    | inventoryPageHeader number => exact Bool.noConfusion hrow
    | inventoryPage page => exact Bool.noConfusion hrow

theorem parsePublishJournal_ok (h : parsePublishJournal stored = .ok journal) :
    journal = stored := by
  simp only [parsePublishJournal, guard_eq_ok_iff] at h
  exact (Except.ok.inj h.2.2.2).symm

/-- What was decided is what is loaded, if anything is. -/
theorem Decided.loaded {loaded : LocalTransactionInventory} (h : Decided disk inventory)
    (hload : loadLocalTransactionInventoryFromOpenDevice disk = .ok loaded) :
    loaded = inventory := by
  obtain ⟨stored, hstored, hphase, hnew⟩ := h
  have hrecover : ∀ primary, recoverInventoryFromPublishJournal disk primary =
      .ok loaded → loaded = inventory := by
    intro primary h
    rw [recoverInventoryFromPublishJournal, hstored] at h
    obtain ⟨journal, hparse, h⟩ := bind_eq_ok_iff.mp h
    obtain ⟨_, -, h⟩ := bind_eq_ok_iff.mp h
    rw [← Except.ok.inj h, parsePublishJournal_ok hparse, PublishJournal.selected, hphase]
    exact hnew
  rw [loadLocalTransactionInventoryFromOpenDevice] at hload
  split at hload
  · exact hrecover _ hload
  · obtain ⟨_, -, hload⟩ := bind_eq_ok_iff.mp hload
    exact hrecover _ hload

/-! ## The batch -/

abbrev WritesRow (w : DeviceWrite κ) : Prop := w.rowImage.isSome = true

theorem rowImages_inventorial (h : ∀ w ∈ ws, Inventorial w) : rowImages ws = [] :=
  List.filterMap_eq_nil_iff.mpr h

theorem rowImages_append (ws vs : List (DeviceWrite κ)) :
    rowImages (ws ++ vs) = rowImages ws ++ rowImages vs := List.filterMap_append

theorem rowImages_rowPages (pages : List (RowDataPageBody κ)) :
    rowImages (pages.map DeviceWrite.rowPage) = pages := by
  rw [rowImages, List.filterMap_map]
  exact List.filterMap_some

theorem moves_writeRowPages : Moves (Logs WritesRow) (writeRowPages faults pages) := by
  induction pages with
  | nil => exact reads_pure.moves
  | cons body pages ih => exact (moves_writeAt (p := WritesRow) rfl).bind fun _ => ih

theorem returns_writeRowPages (h : Returns (writeRowPages faults pages) s u s') :
    s'.writes = s.writes ++ pages.map .rowPage ∧ s'.disk = s.disk.after (pages.map .rowPage) := by
  induction pages generalizing s with
  | nil =>
    obtain ⟨-, rfl⟩ := returns_pure.mp h
    exact ⟨(append_nil _).symm, rfl⟩
  | cons body pages ih =>
    obtain ⟨_, t, hwrite, h⟩ := returns_bind.mp h
    obtain ⟨hwrites, hdisk⟩ := ih h
    rw [← returns_operate hwrite] at hwrites hdisk
    refine ⟨?_, hdisk⟩
    rw [hwrites]
    exact append_assoc _ _ _

/-- The writes of a call fall into three parts: those of the first publication,
row pages, and those of the second. -/
structure Phases (disk : CowDisk κ) (prepared : PreparedBatch κ)
    (guard rows release : List (DeviceWrite κ)) : Prop where
  guarding : ∀ w ∈ guard, Inventorial w
  writing : ∀ w ∈ rows, WritesRow w
  releasing : ∀ w ∈ release, Inventorial w
  marked : rows ++ release ≠ [] → ∃ marked, markLocalTransactionRollbackOnly prepared.inventory
      prepared.entry.localId = .ok marked ∧ Decided (disk.after guard) marked.inventory
  complete : release ≠ [] → rowImages rows = prepared.pages

theorem phases_of_writePreparedBatch {o : Except DiagnosticRecord PhysicalMgaCowMutationBatchResult}
    (h : (writePreparedBatch faults request prepared).run.run s = (o, s')) :
    ∃ guard rows release, s'.writes = s.writes ++ (guard ++ (rows ++ release)) ∧
      Phases s.disk prepared guard rows release := by
  have hnone : ∀ {q : DeviceWrite κ → Prop}, ∀ w ∈ ([] : List (DeviceWrite κ)),
      q w := forall_mem_nil _
  rcases bind_cases h with hrefused | ⟨marked, t, hmarked, h⟩
  · obtain rfl := hrefused.of_ofOutcome
    exact ⟨[], [], [], (append_nil _).symm, hnone, hnone, hnone,
      fun hne => absurd rfl hne, fun hne => absurd rfl hne⟩
  obtain ⟨hmark, rfl⟩ := returns_ofOutcome.mp hmarked
  rcases bind_cases h with hrefused | ⟨guarded, t, hguarded, h⟩
  · obtain ⟨guard, hguard, hwrites, -⟩ := moves_persist.refuses hrefused
    exact ⟨guard, [], [], by rw [hwrites, append_nil, append_nil],
      hguard, hnone, hnone, fun hne => absurd rfl hne, fun hne => absurd rfl hne⟩
  obtain ⟨guard, hguard, hwrites, hdisk⟩ := moves_persist.returns hguarded
  have hdecided := (decided_of_persist hguarded).2
  rw [hdisk] at hdecided
  rcases bind_cases h with hrefused | ⟨_, t', hrows, h⟩
  · obtain ⟨rows, hrow, hwrites', -⟩ := moves_writeRowPages.refuses hrefused
    refine ⟨guard, rows, [], ?_, hguard, hrow, hnone,
      fun _ => ⟨marked, hmark, hdecided⟩, fun hne => absurd rfl hne⟩
    rw [hwrites', hwrites, append_nil, append_assoc]
  obtain ⟨hwrites', -⟩ := returns_writeRowPages hrows
  have hrest : Logs Inventorial t' s' := by
    refine Moves.ends ?_ h
    exact moves_syncWhen.bind fun _ => reads_ofOutcome.moves.bind fun _ =>
      moves_persist.bind fun _ => reads_pure.moves
  obtain ⟨release, hrelease, hwrites'', -⟩ := hrest
  refine ⟨guard, prepared.pages.map .rowPage, release, ?_, hguard, ?_, hrelease,
    fun _ => ⟨marked, hmark, hdecided⟩, fun _ => rowImages_rowPages _⟩
  · rw [hwrites'', hwrites', hwrites]
    simp only [append_assoc]
  · intro w hw
    obtain ⟨body, -, rfl⟩ := mem_map.mp hw
    rfl

theorem commit_refused_of_marked {marked r : TransactionInventoryResult}
    (hmark : markLocalTransactionRollbackOnly inventory num = .ok marked) :
    commitLocalTransaction marked.inventory num millis ≠ .ok r := by
  intro hcommit
  obtain ⟨e, hfind, hentry, hinventory⟩ := markLocalTransactionRollbackOnly_ok hmark
  obtain ⟨x, hx, -, -, hfree, -⟩ := commitLocalTransaction_ok hcommit
  have hkey : marked.entry.localId = num := by
    rw [hentry]
    exact (findEntry_mem hfind).2
  have hlookup : findEntry marked.inventory num = some marked.entry := by
    rw [hinventory]
    exact findEntry_putEntry hfind hkey
  rw [hlookup] at hx
  cases hx
  rw [hentry] at hfree
  exact Bool.noConfusion hfree

/-- The transaction a batch is written in. -/
def batchTransaction (request : PhysicalMgaCowMutationBatch κ) : Nat :=
  match request.mutations with
  | [] => kInvalidLocalTransactionId
  | first :: _ => first.existingLocalTransactionId

theorem prepareBatch_entry {device : CowDevice κ}
    {loaded : Except DiagnosticRecord LocalTransactionInventory}
    (h : prepareBatch cellBytes device loaded request issued = .ok prepared) :
    prepared.entry.localId = batchTransaction request := by
  rw [prepareBatch] at h
  rw [batchTransaction]
  cases hmutations : request.mutations with
  | nil =>
    rw [hmutations] at h
    cases h
  | cons first rest =>
  rw [hmutations] at h
  dsimp only at h ⊢
  split at h
  · cases h
  simp only [cowError, guard_eq_ok_iff, bind_eq_ok_iff] at h
  obtain ⟨-, inventory, -, entry, hadmit, -, stage, -, pages, -, -, h⟩ := h
  rw [← Except.ok.inj h]
  rw [admitBatchTransaction, bind_eq_ok_iff] at hadmit
  obtain ⟨existing, hlookup, hadmit⟩ := hadmit
  obtain ⟨-, hadmit⟩ := guard_eq_ok_iff.mp hadmit
  split at hadmit
  · cases hadmit
  · rw [← Except.ok.inj hadmit]
    exact (lookupLocalTransaction_ok hlookup).2.1

/-- Where a call was cut short. -/
theorem prefix_append_cases {crash front back : List α} (h : crash <+: front ++ back) :
    crash <+: front ∨ ∃ rest, rest ≠ [] ∧ crash = front ++ rest ∧ rest <+: back := by
  rcases List.prefix_or_prefix_of_prefix h (prefix_append front back) with hfront | ⟨rest, rfl⟩
  · exact .inl hfront
  · rcases eq_or_ne rest [] with rfl | hne
    · rw [append_nil]
      exact .inl (List.prefix_refl front)
    · exact .inr ⟨rest, hne, rfl, (prefix_append_right_inj front).mp h⟩

/-- However a batch is cut short, its transaction can be committed afterwards
only if none of its row pages were written, or all of them. -/
theorem batch_all_or_nothing {cellBytes : κ → Except DiagnosticRecord Nat}
    {request : PhysicalMgaCowMutationBatch κ}
    {issued : Nat → Except DiagnosticRecord TypedUuid} {disk : CowDisk κ}
    {outcome : Except DiagnosticRecord PhysicalMgaCowMutationBatchResult}
    (hcall : (writePhysicalMgaCowUnpublishedMutationBatchToOpenDevice faults
      cellBytes request issued).run.run { disk := disk } = (outcome, s'))
    {crash : List (DeviceWrite κ)} (hcrash : crash <+: s'.writes)
    {inventory : LocalTransactionInventory}
    (hload : loadLocalTransactionInventoryFromOpenDevice (disk.after crash) = .ok inventory)
    {millis : Nat} {r : TransactionInventoryResult}
    (hcommit : commitLocalTransaction inventory (batchTransaction request) millis = .ok r) :
    rowImages crash = [] ∨ ∃ prepared, prepareBatchOn cellBytes disk request issued = .ok prepared ∧
        rowImages crash = prepared.pages := by
  rcases bind_cases hcall with hrefused | ⟨session, t, hget, h⟩
  · exact absurd hrefused refuses_get
  obtain ⟨rfl, rfl⟩ := returns_get.mp hget
  rcases bind_cases h with hrefused | ⟨prepared, t, hreturned, h⟩
  · obtain rfl := hrefused.of_ofOutcome
    obtain rfl := List.prefix_nil.mp hcrash
    exact .inl rfl
  obtain ⟨hprepared, rfl⟩ := returns_ofOutcome.mp hreturned
  obtain ⟨guard, rows, release, hwrites, hphases⟩ := phases_of_writePreparedBatch h
  rw [hwrites, nil_append] at hcrash
  rcases prefix_append_cases hcrash with hguard | ⟨rest, hne, rfl, hrest⟩
  · exact .inl (rowImages_inventorial fun w hw => hphases.guarding w (hguard.subset hw))
  rcases prefix_append_cases hrest with hrows | ⟨last, hlast, rfl, hrelease⟩
  · -- In the middle of the row pages the mark is what is loaded.
    exfalso
    obtain ⟨marked, hmark, hdecided⟩ := hphases.marked fun hnil => by
      rw [hnil] at hrest
      exact hne (List.prefix_nil.mp hrest)
    have hmarked : Decided (disk.after (guard ++ rest)) marked.inventory := by
      rw [after_append]
      exact hdecided.after_rows fun w hw => hphases.writing w (hrows.subset hw)
    rw [hmarked.loaded hload, ← prepareBatch_entry hprepared] at hcommit
    exact commit_refused_of_marked hmark hcommit
  · refine .inr ⟨prepared, hprepared, ?_⟩
    have hcomplete := hphases.complete fun hnil => by
      rw [hnil] at hrelease
      exact hlast (List.prefix_nil.mp hrelease)
    have hguarding := rowImages_inventorial hphases.guarding
    have hreleasing := @rowImages_inventorial κ last fun w hw =>
      hphases.releasing w (hrelease.subset hw)
    rw [rowImages_append, rowImages_append, hguarding, hcomplete, hreleasing,
      nil_append, append_nil]

/-! ## Calls that return -/

theorem Logs.view (h : Logs Inventorial s s') (inventory : LocalTransactionInventory) :
    s'.disk.view inventory = s.disk.view inventory := by
  obtain ⟨ws, hws, -, hdisk⟩ := h
  rw [hdisk]
  clear hdisk
  generalize s.disk = disk
  induction ws generalizing disk with
  | nil => rfl
  | cons w ws ih =>
    rw [show disk.after (w :: ws) = (disk.write w).after ws from rfl, ih (forall_mem_cons.mp hws).2]
    have hw := hws w mem_cons_self
    cases w with
    | rowPage body => cases hw
    | publication | inventoryPageHeader | inventoryPage => rfl

theorem view_inventory : (disk.view old).inventory = old := rfl

theorem loadInventoryChain_ok {chain : InventoryChain}
    (h : loadInventoryChain disk = .ok chain) : WellFormed chain.inventory := by
  obtain ⟨walked, -, h⟩ := bind_eq_ok_iff.mp h
  split at h
  · cases h
  · next hvalid =>
    rw [← Except.ok.inj h]
    exact validateStructure_eq_none_iff.mp hvalid

/-- A load is what the carrier says, or the chain if there is none. -/
theorem loadLocalTransactionInventory_eq (disk : CowDisk κ) :
    loadLocalTransactionInventoryFromOpenDevice disk = recoverInventoryFromPublishJournal disk
        ((·.inventory) <$> loadInventoryChain disk) := by
  rw [loadLocalTransactionInventoryFromOpenDevice]
  split
  · next hchain => rw [hchain]; rfl
  · next chain hchain =>
    rw [computeLocalTransactionHorizons_plain (loadInventoryChain_ok hchain), hchain]
    rfl

/-- What is loaded has its horizons, and a publication starts from it. -/
theorem load_ok (hload : loadLocalTransactionInventoryFromOpenDevice disk = .ok old) :
    (∃ horizons, computeLocalTransactionHorizons old [] = .ok horizons) ∧
      ∀ start, publicationStart disk = .ok start → start.old = old := by
  rw [loadLocalTransactionInventory_eq, recoverInventoryFromPublishJournal] at hload
  simp only [publicationStart]
  cases hjournal : disk.journal with
  | none =>
    rw [hjournal] at hload
    obtain ⟨chain, hchain, rfl⟩ := map_eq_ok_iff.mp hload
    refine ⟨⟨_, computeLocalTransactionHorizons_plain (loadInventoryChain_ok hchain)⟩, ?_⟩
    intro start hstart
    rw [hchain] at hstart
    rw [← Except.ok.inj hstart]
  | some stored =>
    rw [hjournal] at hload
    obtain ⟨journal, hparse, hload⟩ := bind_eq_ok_iff.mp hload
    obtain ⟨horizons, hhorizons, hload⟩ := bind_eq_ok_iff.mp hload
    rw [← Except.ok.inj hload]
    refine ⟨⟨horizons, hhorizons⟩, ?_⟩
    intro start hstart
    simp only [hparse] at hstart
    rw [← Except.ok.inj hstart]

theorem checkPublication_ok (h : checkPublication disk inventory = .ok start) :
    (∃ horizons, computeLocalTransactionHorizons inventory [] = .ok horizons) ∧
      publicationStart disk = .ok start ∧
      ¬(inventory.nextLocalTransactionId < start.old.nextLocalTransactionId ∨
        inventory.nextCommitSequence < start.old.nextCommitSequence) ∧
      validateLocalTransactionInventoryEvolution start.old inventory = none := by
  obtain ⟨horizons, hhorizons, h⟩ := bind_eq_ok_iff.mp h
  obtain ⟨-, h⟩ := guard_eq_ok_iff.mp h
  obtain ⟨found, hfound, h⟩ := bind_eq_ok_iff.mp h
  rw [storePageError, guard_eq_ok_iff, storePageError, guard_eq_ok_iff] at h
  obtain ⟨-, hcounters, h⟩ := h
  split at h
  · cases h
  · next hvalid =>
    cases h
    exact ⟨⟨horizons, hhorizons⟩, hfound, hcounters, hvalid⟩

/-- What a publication decided can be loaded. -/
theorem loads_of_publishInventory (hcheck : checkPublication disk inventory = .ok start)
    (h : Returns (publishInventory faults policy start inventory) s a s') :
    loadLocalTransactionInventoryFromOpenDevice s'.disk = .ok inventory := by
  obtain ⟨⟨horizons, hhorizons⟩, -, -, hvalid⟩ := checkPublication_ok hcheck
  obtain ⟨-, journal, hbuild, hdisk⟩ := returns_publishInventory h
  obtain ⟨⟨hold, hnew, hzero, hlt⟩, rfl⟩ := buildPublishJournal_ok hbuild
  rw [loadLocalTransactionInventory_eq, recoverInventoryFromPublishJournal, hdisk]
  simp only
  rw [parsePublishJournal, if_neg (not_or.mpr ⟨hzero, Nat.not_le.mpr hlt⟩),
    if_neg (not_or.mpr ⟨not_not.mpr hold, not_not.mpr hnew⟩), hvalid]
  show (do
    let _ ← computeLocalTransactionHorizons inventory []
    return inventory) = Except.ok inventory
  rw [hhorizons]
  rfl

theorem persist_refines (h : Returns (persistLocalTransactionInventoryToOpenDevice faults policy
      inventory) s a s')
    (hload : loadLocalTransactionInventoryFromOpenDevice s.disk = .ok old) :
    Storage.persistLocalTransactionInventoryToOpenDevice (s.disk.view old)
        inventory = .ok (s'.disk.view inventory) ∧
      loadLocalTransactionInventoryFromOpenDevice s'.disk = .ok inventory := by
  have hview := Logs.view (moves_persist.returns h) inventory
  have h := returns_get_bind.mp h
  obtain ⟨start, hcheck, h⟩ := returns_ofOutcome_bind.mp h
  obtain ⟨⟨horizons, hhorizons⟩, hbase, hcounters, hvalid⟩ := checkPublication_ok hcheck
  have hold := (load_ok hload).2 start hbase
  rw [hold] at h hcounters hvalid
  have hallocated : checkStartingAllocation old inventory = .ok () ∧
      loadLocalTransactionInventoryFromOpenDevice s'.disk = .ok inventory := by
    split at h
    · split at h
      · exact absurd h returns_throw.mp
      · obtain ⟨_, hallocated, h⟩ := returns_ofOutcome_bind.mp h
        obtain ⟨_, _, -, h⟩ := returns_bind.mp h
        obtain ⟨_, _, -, h⟩ := returns_bind.mp h
        obtain ⟨_, _, hagain, h⟩ := returns_bind.mp h
        exact ⟨hallocated, loads_of_publishInventory (returns_ofOutcome.mp hagain).1 h⟩
    · next hnone =>
      refine ⟨?_, loads_of_publishInventory hcheck h⟩
      rw [checkStartingAllocation, if_neg hnone]
  refine ⟨?_, hallocated.2⟩
  rw [Storage.persistLocalTransactionInventoryToOpenDevice, hhorizons, hview]
  rw [view_inventory, if_neg hcounters, hvalid]
  rw [hallocated.1]
  rfl

/-- Row pages change the row pages of the device, and nothing a load reads. -/
theorem after_rowPages (disk : CowDisk κ) (pages : List (RowDataPageBody κ)) :
    (disk.after (pages.map .rowPage)).view inventory =
        pages.foldl CowDevice.putPage (disk.view inventory) ∧
      loadLocalTransactionInventoryFromOpenDevice (disk.after (pages.map .rowPage)) =
        loadLocalTransactionInventoryFromOpenDevice disk := by
  induction pages generalizing disk with
  | nil => exact ⟨rfl, rfl⟩
  | cons body pages ih =>
    have hone : (disk.write (.rowPage body)).view inventory =
        (disk.view inventory).putPage body := by
      rw [CowDisk.write, CowDevice.putPage, putPage]
      dsimp only [CowDisk.view]
      cases lookup RowDataPageBody.pageNumber body.pageNumber disk.rowPages <;>
        rfl
    rw [foldl_cons, ← hone]
    exact ih (disk.write (.rowPage body))

theorem returns_syncWhen (h : Returns (syncWhen faults wanted) s u s') : s'.disk = s.disk := by
  obtain ⟨ws, hws, -, hdisk⟩ := (moves_syncWhen (p := fun _ => False)).returns h
  rw [hdisk, List.eq_nil_iff_forall_not_mem.mpr hws]
  rfl

/-- Staging reads row pages, and the inventory it is given. -/
theorem stageMutations_view (disk : CowDisk κ) (old old' : LocalTransactionInventory) :
    stageMutations (disk.view old) = stageMutations (disk.view old') := by
  funext inventory entry unique first issued ordinal requests stage
  induction requests generalizing ordinal stage with
  | nil => rfl
  | cons request rest ih =>
    rw [stageMutations]
    simp only [ih]
    rfl

theorem prepareBatch_view (disk : CowDisk κ) (old old' : LocalTransactionInventory) :
    prepareBatch cellBytes (disk.view old) = prepareBatch cellBytes (disk.view old') := by
  funext loaded request issued
  rw [prepareBatch, stageMutations_view disk old old']
  rfl

theorem load_view (hload : loadLocalTransactionInventoryFromOpenDevice disk = .ok old) :
    Storage.loadLocalTransactionInventoryFromOpenDevice (disk.view old) = .ok old := by
  obtain ⟨⟨horizons, hhorizons⟩, -⟩ := load_ok hload
  rw [Storage.loadLocalTransactionInventoryFromOpenDevice, view_inventory, hhorizons]
  rfl

/-- A batch that returns did what it does on the device. -/
theorem batch_refines {result : PhysicalMgaCowMutationBatchResult}
    (h : Returns (writePhysicalMgaCowUnpublishedMutationBatchToOpenDevice faults
      cellBytes request issued) s result s')
    (hload : loadLocalTransactionInventoryFromOpenDevice s.disk = .ok old) :
    ∃ inventory, loadLocalTransactionInventoryFromOpenDevice s'.disk = .ok inventory ∧
      Storage.writePhysicalMgaCowUnpublishedMutationBatchToOpenDevice cellBytes
        (s.disk.view old) request issued = (s'.disk.view inventory, .ok result) := by
  have h := returns_get_bind.mp h
  obtain ⟨prepared, hprepare, h⟩ := returns_ofOutcome_bind.mp h
  have hdevice : prepareBatch cellBytes (s.disk.view old)
      (Storage.loadLocalTransactionInventoryFromOpenDevice (s.disk.view old))
        request issued = .ok prepared := by
    rw [load_view hload, ← hload, prepareBatch_view s.disk old {}]
    exact hprepare
  obtain ⟨marked, hmark, h⟩ := returns_ofOutcome_bind.mp h
  obtain ⟨guarded, t, hguarded, h⟩ := returns_bind.mp h
  obtain ⟨_, t', hrows, h⟩ := returns_bind.mp h
  obtain ⟨_, t'', hsync, h⟩ := returns_bind.mp h
  obtain ⟨completed, hrelease, h⟩ := returns_ofOutcome_bind.mp h
  obtain ⟨_, _, hreleased, h⟩ := returns_bind.mp h
  obtain ⟨rfl, rfl⟩ := returns_pure.mp h
  obtain ⟨hguard, hguardLoad⟩ := persist_refines hguarded hload
  obtain rfl := (decided_of_persist hguarded).1
  have hdisk := (returns_syncWhen hsync).trans (returns_writeRowPages hrows).2
  obtain ⟨hwritten, hsame⟩ := @after_rowPages κ marked.inventory t.disk prepared.pages
  rw [← hdisk] at hwritten hsame
  obtain ⟨hpersist, hpersistLoad⟩ := persist_refines hreleased (hsame.trans hguardLoad)
  refine ⟨completed, hpersistLoad, ?_⟩
  rw [Storage.writePhysicalMgaCowUnpublishedMutationBatchToOpenDevice]
  simp only [hdevice, hmark, hguard]
  rw [← hwritten, view_inventory, hrelease]
  simp only [hpersist]

end

/-- One open transaction, and no row page yet. -/
def openDisk : CowDisk Unit :=
  { path := "db"
    pageSize := 1024
    inventoryPages :=
      [{ pageNumber := kTransactionInventoryPageNumber
         previousPageNumber := 0
         nextPageNumber := 0
         inventoryGeneration := 1
         inventory := compactedInventory 1 }] }

def insertOn (row : UInt8) (pageNumber : Nat) : PhysicalMgaCowMutation Unit :=
  { relationUuid := ⟨.object, engineUuid 100⟩
    rowUuid := ⟨.row, engineUuid row⟩
    transactionUuid := ⟨.transaction, engineUuid 1⟩
    existingLocalTransactionId := 1
    useExistingTransaction := true
    pageNumber
    stableSlotId := 1
    cells := [()] }

def twoPageBatch : PhysicalMgaCowMutationBatch Unit :=
  { mutations := [insertOn 11 6, insertOn 12 7] }

def issuedVersions (ordinal : Nat) : Except DiagnosticRecord TypedUuid :=
  .ok ⟨.row, engineUuid (if ordinal = 0 then 21 else 22)⟩

def twoPageCall : Except DiagnosticRecord PhysicalMgaCowMutationBatchResult × Session Unit :=
  (writePhysicalMgaCowUnpublishedMutationBatchToOpenDevice (fun _ => none)
    (fun _ => .ok 1) twoPageBatch issuedVersions).run.run { disk := openDisk }

theorem twoPageBatch_all_or_nothing :
    (∃ inventory r, loadLocalTransactionInventoryFromOpenDevice
        (openDisk.after twoPageCall.2.writes) = .ok inventory ∧
      commitLocalTransaction inventory (batchTransaction twoPageBatch) 9 = .ok r ∧
      r.entry.commitSequence = 1) ∧
    (rowImages twoPageCall.2.writes = [] ∨ ∃ prepared,
      prepareBatchOn (fun _ => .ok 1) openDisk twoPageBatch issuedVersions = .ok prepared ∧
        rowImages twoPageCall.2.writes = prepared.pages) := by
  obtain ⟨inventory, hload, r, hcommit, hsequence⟩ : ∃ inventory,
      loadLocalTransactionInventoryFromOpenDevice (openDisk.after twoPageCall.2.writes) =
        .ok inventory ∧
      ∃ r, commitLocalTransaction inventory (batchTransaction twoPageBatch) 9 = .ok r ∧
        r.entry.commitSequence = 1 := by
    decide +kernel
  exact ⟨⟨inventory, r, hload, hcommit, hsequence⟩,
    @batch_all_or_nothing Unit (fun _ => none) twoPageCall.2 (fun _ => .ok 1)
      twoPageBatch issuedVersions openDisk twoPageCall.1 Prod.mk.eta.symm _
      (List.prefix_refl _) inventory hload 9 r hcommit⟩

theorem twoPageBatch_refines : ∃ result inventory, twoPageCall.1 = .ok result ∧
    result.pagesWritten = 2 ∧
    loadLocalTransactionInventoryFromOpenDevice twoPageCall.2.disk = .ok inventory ∧
      Storage.writePhysicalMgaCowUnpublishedMutationBatchToOpenDevice (fun _ => .ok 1)
        (openDisk.view (compactedInventory 1)) twoPageBatch issuedVersions =
          (twoPageCall.2.disk.view inventory, .ok result) := by
  obtain ⟨result, hresult, hrows⟩ : ∃ result, twoPageCall.1 = .ok result ∧
      result.pagesWritten = 2 := by
    decide +kernel
  have hload : loadLocalTransactionInventoryFromOpenDevice openDisk =
      .ok (compactedInventory 1) := by
    decide +kernel
  have hreturns : twoPageCall = (.ok result, twoPageCall.2) := by rw [← hresult]
  obtain ⟨inventory, h⟩ := batch_refines hreturns hload
  exact ⟨result, inventory, hresult, hrows, h⟩

end ScratchBird.Storage.Device
