import ScratchBird.Lib.Refusal
import ScratchBird.Storage.PageAllocation

/-!
# No page is lost and none is given out twice

Each call moves pages between the free extents and the live allocations. So what
has to be proved of a call is an equation: for every page, the number of extents
that contain it is the same before and after. Disjointness and the covered set both
follow from the count, and the history entries, which may overlap anything, never
enter it.

The arithmetic is that of 64-bit numbers, and two facts keep it honest. An extent
ends at or before the largest representable page, and an extent that begins at page
zero is empty. The second one is what the coalescing needs: it is why the length of
two neighbours together does not wrap, and why a wrapped end that meets an extent at
page zero meets an empty one. It is also what the code assumes when it gives pages
back. An extent that begins at page zero is not taken back, so a ledger that has
page zero to give out loses it with the first allocation that returns.
-/

namespace ScratchBird.PageAllocation

open Lib Storage
open List hiding Disjoint

variable {index page i : Nat} {start pageCount : UInt64} {last extent : PageFreeExtent}
  {issued : Option TypedUuid} {extents rest first second third after' right : List PageFreeExtent}
  {ledger remaining : PageAllocationLedger} {entry entry' pool : PageAllocationEntry}
  {request : PageReleaseRequest}

/-- The states whose pages belong to the entry. -/
def PageAllocationEntry.live (entry : PageAllocationEntry) : Bool :=
  entry.state == .allocated || entry.state == .preallocated || entry.state == .reusablePendingMga

def liveExtents (allocations : List PageAllocationEntry) : List PageFreeExtent :=
  (allocations.filter (·.live)).map (·.toPageFreeExtent)

/-- The free extents and those of the live allocations. -/
def PageAllocationLedger.heldExtents (ledger : PageAllocationLedger) :
    List PageFreeExtent := ledger.freeExtents ++ liveExtents ledger.allocations

def pageCover (extents : List PageFreeExtent) (page : Nat) : Nat :=
  cover (extents.map (·.pages)) page

@[simp] theorem pageCover_nil : pageCover [] page = 0 := rfl

@[simp] theorem pageCover_cons :
    pageCover (extent :: extents) page = extent.pages.indicator page + pageCover extents page := rfl

@[simp] theorem pageCover_append :
    pageCover (extents ++ rest) page = pageCover extents page + pageCover rest page := by
  simp [pageCover]

theorem pageCover_perm (h : extents.Perm rest) :
    pageCover extents page = pageCover rest page := cover_perm (h.map _)

/-! ## Extents whose arithmetic does not wrap -/

structure PageFreeExtent.Placed (extent : PageFreeExtent) : Prop where
  ends : extent.startPage.toNat + extent.pageCount.toNat ≤ 2 ^ 64
  zero : extent.startPage.toNat = 0 → extent.pageCount.toNat = 0

open PageFreeExtent

/-- `after` covers what `before` covers, and all its extents are placed. -/
structure Covers (before after : List PageFreeExtent) : Prop where
  placed : ∀ extent ∈ after, extent.Placed
  same : ∀ page, pageCover after page = pageCover before page

/-- What stands around the extents stays. -/
theorem Covers.frame {before after : List PageFreeExtent}
    (h : Covers before after) (left right : List PageFreeExtent)
    (hl : ∀ extent ∈ left, extent.Placed) (hr : ∀ extent ∈ right, extent.Placed) :
    Covers (left ++ before ++ right) (left ++ after ++ right) := by
  constructor
  · exact forall_mem_append.mpr ⟨forall_mem_append.mpr ⟨hl, h.placed⟩, hr⟩
  · intro page
    simp [h.same page]

theorem Covers.trans (h : Covers first second) (h' : Covers second third) : Covers first third :=
  ⟨h'.placed, fun page => (h'.same page).trans (h.same page)⟩

theorem Covers.perm {before after : List PageFreeExtent}
    (h : Covers before after) (hperm : after.Perm after') : Covers before after' :=
  ⟨fun extent hmem => h.placed extent (hperm.mem_iff.mpr hmem),
    fun page => (pageCover_perm hperm).symm.trans (h.same page)⟩

theorem Covers.refl (h : ∀ extent ∈ extents, extent.Placed) : Covers extents extents :=
  ⟨h, fun _ => rfl⟩

/-- An extent is its front and what is left behind it. -/
theorem covers_withoutFront (h : extent.Placed) (hle : pageCount ≤ extent.pageCount) :
    Covers [extent] (⟨extent.startPage, pageCount⟩ :: extent.withoutFront pageCount) := by
  have hleNat := UInt64.le_iff_toNat_le.mp hle
  have hsub : (extent.pageCount - pageCount).toNat =
      extent.pageCount.toNat - pageCount.toNat := UInt64.toNat_sub_of_le _ _ hle
  obtain ⟨hends, hzero⟩ := h
  have hfront : PageFreeExtent.Placed ⟨extent.startPage, pageCount⟩ :=
    ⟨by dsimp only; omega, by dsimp only; omega⟩
  rw [PageFreeExtent.withoutFront]
  split
  · next hnone =>
    have hnone : (extent.pageCount - pageCount).toNat = 0 := by rw [hnone]; rfl
    have hall : pageCount = extent.pageCount := UInt64.toNat_inj.mp (by omega)
    rw [hall] at hfront ⊢
    exact Covers.refl (by simpa using hfront)
  · next hsome =>
    have hsome : (extent.pageCount - pageCount).toNat ≠ 0 := fun h => hsome (UInt64.toNat_inj.mp h)
    -- Something is left, so the new start is still a page number.
    have hstart : (extent.startPage + pageCount).toNat =
        extent.startPage.toNat + pageCount.toNat := by
      rw [UInt64.toNat_add, Nat.mod_eq_of_lt (by omega)]
    constructor
    · intro left hmem
      rcases List.mem_pair.mp hmem with rfl | rfl
      · exact hfront
      · exact ⟨by dsimp only; omega, by dsimp only; omega⟩
    · intro page
      have hsplit := Extent.indicator_split (e := extent.pages) (k := pageCount.toNat) hleNat page
      simpa [PageFreeExtent.pages, hstart, hsub] using hsplit.symm

/-! ## Taking pages -/

/-- The front of one extent has been taken. -/
theorem covers_taken (left : List PageFreeExtent) (h : ∀ e ∈ left ++ extent :: right, e.Placed)
    (hle : pageCount ≤ extent.pageCount) :
    Covers (left ++ extent :: right) (⟨extent.startPage, pageCount⟩ ::
      (left ++ (extent.withoutFront pageCount ++ right))) := by
  have hframe := (covers_withoutFront (h extent (by simp)) hle).frame
    left right (fun e hmem => h e (by simp [hmem])) (fun e hmem => h e (by simp [hmem]))
  rw [append_assoc] at hframe
  refine hframe.perm ?_
  rw [append_assoc]
  exact perm_middle

theorem exists_split_of_getElem? {α : Type} {l : List α} {a : α}
    (h : l[i]? = some a) : l = l.take i ++ a :: l.drop (i + 1) := by
  obtain ⟨hlt, rfl⟩ := List.getElem?_eq_some_iff.mp h
  rw [← List.drop_eq_getElem_cons hlt, List.take_append_drop]

theorem covers_takeFreeExtentAtIndex (h : ∀ e ∈ extents, e.Placed)
    (htaken : takeFreeExtentAtIndex extents index pageCount = some (start, rest)) :
    Covers extents (⟨start, pageCount⟩ :: rest) := by
  rw [takeFreeExtentAtIndex] at htaken
  cases hget : extents[index]? with
  | none => simp [hget] at htaken
  | some extent =>
    simp only [hget] at htaken
    split at htaken
    · cases htaken
    · next hcount =>
      obtain ⟨rfl, rfl⟩ := Prod.mk.inj (Option.some.inj htaken)
      have hle : pageCount ≤ extent.pageCount := UInt64.not_lt.mp fun hlt => hcount (.inr hlt)
      have hsplit := exists_split_of_getElem? hget
      have hcovers := covers_taken _ (hsplit ▸ h) hle
      rwa [← hsplit] at hcovers

theorem covers_takeFreeExtentFrom (h : ∀ e ∈ extents, e.Placed)
    (htaken : takeFreeExtentFrom pageCount extents = some (start, rest)) :
    Covers extents (⟨start, pageCount⟩ :: rest) := by
  induction extents generalizing rest with
  | nil => cases htaken
  | cons extent tail ih =>
    rw [takeFreeExtentFrom] at htaken
    split at htaken
    · obtain ⟨⟨start', rest'⟩, htail, heq⟩ := Option.map_eq_some_iff.mp htaken
      cases heq
      have hframe := (ih (forall_mem_cons.mp h).2 htail).frame
        [extent] [] (fun e hmem => h e (by simp_all)) (by simp)
      simp only [append_nil] at hframe
      exact hframe.perm (List.Perm.swap _ _ _)
    · next hcount =>
      obtain ⟨rfl, rfl⟩ := Prod.mk.inj (Option.some.inj htaken)
      exact covers_taken [] h (UInt64.not_lt.mp hcount)

/-! ## Giving pages back -/

/-- Two extents of which the first ends where the second begins. -/
theorem covers_merged (hl : last.Placed) (he : extent.Placed)
    (hmeet : last.startPage + last.pageCount = extent.startPage) :
    Covers [last, extent] [{ last with pageCount := last.pageCount + extent.pageCount }] := by
  have hmeet : (last.startPage.toNat + last.pageCount.toNat) % 2 ^ 64 =
      extent.startPage.toNat := by
    rw [← UInt64.toNat_add, hmeet]
  have hsum := UInt64.toNat_add last.pageCount extent.pageCount
  have hlast := UInt64.toNat_lt last.pageCount
  obtain ⟨hlends, hlzero⟩ := hl
  obtain ⟨heends, hezero⟩ := he
  by_cases hempty : extent.pageCount.toNat = 0
  · have hcount : last.pageCount + extent.pageCount = last.pageCount :=
      UInt64.toNat_inj.mp (by rw [hsum, hempty, Nat.add_zero, Nat.mod_eq_of_lt hlast])
    rw [hcount]
    refine ⟨by simpa using ⟨hlends, hlzero⟩, fun page => ?_⟩
    simp [Extent.indicator_empty (e := extent.pages) hempty page]
  · -- The second has pages, so it is not at page zero and nothing has wrapped.
    have hstart : last.startPage.toNat + last.pageCount.toNat =
        extent.startPage.toNat := by omega
    have hcount : (last.pageCount + extent.pageCount).toNat =
        last.pageCount.toNat + extent.pageCount.toNat := by
      rw [hsum, Nat.mod_eq_of_lt (by omega)]
    constructor
    · intro merged hmem
      obtain rfl := mem_singleton.mp hmem
      exact ⟨by dsimp only; omega, by dsimp only; omega⟩
    · intro page
      have hsplit := Extent.indicator_split
        (e := ⟨last.startPage.toNat, last.pageCount.toNat + extent.pageCount.toNat⟩)
        (k := last.pageCount.toNat) (by dsimp only; omega) page
      simpa [PageFreeExtent.pages, hcount, ← hstart] using hsplit

theorem covers_mergeAfter (hl : last.Placed) (h : ∀ e ∈ extents, e.Placed) :
    Covers (last :: extents) (mergeAfter last extents) := by
  induction extents generalizing last with
  | nil => exact Covers.refl (by simpa [mergeAfter] using hl)
  | cons extent tail ih =>
    have htail : ∀ e ∈ tail, e.Placed := (forall_mem_cons.mp h).2
    have hextent := h extent mem_cons_self
    rw [mergeAfter]
    split
    · next hmeet =>
      have hmerged := covers_merged hl hextent hmeet
      have hframe := hmerged.frame [] tail (by simp) htail
      exact Covers.trans hframe (ih (hmerged.placed _ mem_cons_self) htail)
    · have hframe := (ih hextent htail).frame [last] [] (by simpa using hl) (by simp)
      simpa using hframe

theorem covers_addFreeExtent (h : ∀ e ∈ extents, e.Placed) (he : extent.Placed) :
    Covers (extent :: extents) (addFreeExtent extents extent.startPage extent.pageCount) := by
  rw [addFreeExtent]
  split
  · next hnone =>
    -- Nothing is added, and nothing had to be.
    have hempty : extent.pageCount.toNat = 0 := by
      rcases hnone with hzero | hzero
      · exact he.zero (by rw [hzero]; rfl)
      · rw [hzero]
        rfl
    refine ⟨h, fun page => ?_⟩
    simp [Extent.indicator_empty (e := extent.pages) hempty page]
  · generalize hsorted : List.insertionSort
      (fun left right : PageFreeExtent => left.startPage ≤ right.startPage)
      (extents ++ [extent]) = sorted
    have hperm : (extent :: extents).Perm sorted := by
      rw [← hsorted]
      exact (List.perm_append_singleton extent extents).symm.trans (perm_insertionSort _ _).symm
    have hall : Covers (extent :: extents) sorted :=
      (Covers.refl (by simpa using ⟨he, h⟩)).perm hperm
    cases sorted with
    | nil => exact hall
    | cons first tail =>
      exact hall.trans (covers_mergeAfter (hall.placed first mem_cons_self)
        fun e hmem => hall.placed e (mem_cons_of_mem _ hmem))

/-! ## The calls -/

variable {after : PageAllocationLedger} {before behind : List PageAllocationEntry}

theorem liveExtents_append :
    liveExtents (before ++ behind) = liveExtents before ++ liveExtents behind := by
  simp [liveExtents]

theorem liveExtents_cons :
    liveExtents (entry :: behind) =
      (if entry.live then [entry.toPageFreeExtent] else []) ++ liveExtents behind := by
  rw [liveExtents, filter_cons]
  split <;> simp [liveExtents]

theorem liveExtents_map (hlive : entry.live) :
    liveExtents (extents.map ({ entry with toPageFreeExtent := · })) = extents := by
  induction extents with
  | nil => rfl
  | cons extent tail ih =>
    rw [map_cons, liveExtents_cons, ih]
    exact congrArg (· ++ tail) (if_pos hlive)

theorem liveExtents_at (hget : before[index]? = some entry) :
    liveExtents before = liveExtents (before.take index) ++
      ((if entry.live then [entry.toPageFreeExtent] else []) ++
        liveExtents (before.drop (index + 1))) := by
  nth_rewrite 1 [exists_split_of_getElem? hget]
  rw [liveExtents_append, liveExtents_cons]

theorem liveExtents_set (hget : before[index]? = some entry) :
    liveExtents (before.set index entry') = liveExtents (before.take index) ++
      ((if entry'.live then [entry'.toPageFreeExtent] else []) ++
        liveExtents (before.drop (index + 1))) := by
  obtain ⟨hlt, -⟩ := List.getElem?_eq_some_iff.mp hget
  rw [List.set_eq_take_append_cons_drop, if_pos hlt, liveExtents_append, liveExtents_cons]

/-- A new live entry whose pages the rest of the ledger does not have any more. -/
theorem covers_record (hlive : entry.live)
    (h : Covers ledger.heldExtents (entry.toPageFreeExtent :: remaining.heldExtents)) :
    Covers ledger.heldExtents (remaining.record entry).heldExtents := by
  refine h.perm ?_
  rw [PageAllocationLedger.heldExtents, PageAllocationLedger.heldExtents,
    PageAllocationLedger.record, liveExtents_append, liveExtents_cons, if_pos hlive, ← append_assoc]
  exact (List.perm_append_singleton _ _).symm

section

variable (h : ∀ e ∈ ledger.heldExtents, e.Placed)
include h

/-- Taking free pages leaves the allocations alone. -/
theorem covers_free {free : List PageFreeExtent}
    (hfree : Covers ledger.freeExtents (extent :: free)) :
    Covers ledger.heldExtents (extent :: { ledger with freeExtents := free }.heldExtents) :=
  hfree.frame [] _ (by simp) fun e hmem => h e (mem_append_right _ hmem)

theorem covers_consumePool (hstate : ∀ found, ledger.allocations[index]? = some found → found.live)
    (hconsumed : consumePreallocatedPoolAtIndex ledger.allocations index pageCount =
      some (pool, behind)) :
    Covers ledger.heldExtents (⟨pool.startPage, pageCount⟩ ::
      { ledger with allocations := behind }.heldExtents) := by
  rw [consumePreallocatedPoolAtIndex] at hconsumed
  cases hget : ledger.allocations[index]? with
  | none => simp [hget] at hconsumed
  | some found =>
    simp only [hget] at hconsumed
    split at hconsumed
    · cases hconsumed
    · next hcount =>
      obtain ⟨rfl, rfl⟩ := Prod.mk.inj (Option.some.inj hconsumed)
      have hle : pageCount ≤ found.pageCount := UInt64.not_lt.mp fun hlt => hcount (.inr hlt)
      have hlive := hstate found hget
      have hheld : ledger.heldExtents =
          (ledger.freeExtents ++ liveExtents (ledger.allocations.take index)) ++
            found.toPageFreeExtent :: liveExtents (ledger.allocations.drop (index + 1)) := by
        rw [PageAllocationLedger.heldExtents, liveExtents_at hget, if_pos hlive]
        simp
      have hcovers := covers_taken _ (hheld ▸ h) hle
      rw [← hheld] at hcovers
      refine hcovers.perm (.cons _ (.of_eq ?_))
      simp [PageAllocationLedger.heldExtents, liveExtents_append, liveExtents_map hlive]

theorem covers_reserve {request : PageAllocationRequest}
    (hcall : reservePageAllocation ledger request issued = .ok after) :
    Covers ledger.heldExtents after.heldExtents := by
  rw [reservePageAllocation] at hcall
  split at hcall
  · cases hcall
  · simp only [bind_eq_ok_iff, guard_eq_ok_iff] at hcall
    obtain ⟨decision, -, source, hsource, -, hcall⟩ := hcall
    split at hcall
    · cases hcall
    · next start pool remaining hconsumed =>
      cases hcall
      refine covers_record rfl ?_
      cases source with
      | preallocatedPool index =>
        obtain ⟨⟨pool', rest⟩, hpool, heq⟩ := Option.map_eq_some_iff.mp hconsumed
        cases heq
        refine covers_consumePool h ?_ hpool
        -- The index was found by a test that asks for the state.
        intro found hfound
        rw [selectAllocationSource] at hsource
        split at hsource
        · next index' hindex =>
          obtain rfl : index' = index := by simpa using hsource
          rw [findSufficientPreallocatedPoolIndex, List.findIdx?_eq_some_iff_getElem] at hindex
          obtain ⟨hlt, hmatch, -⟩ := hindex
          obtain rfl : ledger.allocations[index'] = found := by
            simpa [List.getElem?_eq_getElem hlt] using hfound
          simp only [preallocatedPoolScopeMatches, Bool.and_eq_true] at hmatch
          simp [PageAllocationEntry.live, hmatch.1.1.1.1.1.1]
        · split at hsource
          · cases hsource
          · split at hsource <;> cases hsource
      | freeExtent index =>
        obtain ⟨⟨start', rest⟩, htaken, heq⟩ := Option.map_eq_some_iff.mp hconsumed
        cases heq
        exact covers_free h (covers_takeFreeExtentAtIndex
          (fun e hmem => h e (mem_append_left _ hmem)) htaken)

theorem covers_preallocate {request : PagePreallocationRequest}
    (hcall : preallocatePageFamilyPool ledger request issued = .ok after) :
    Covers ledger.heldExtents after.heldExtents := by
  rw [preallocatePageFamilyPool] at hcall
  split at hcall
  · cases hcall
  · obtain ⟨decision, -, hcall⟩ := bind_eq_ok_iff.mp hcall
    split at hcall
    · cases hcall
    · split at hcall
      · cases hcall
      · next start free htaken =>
        cases hcall
        rw [takeFreeExtent] at htaken
        split at htaken
        · cases htaken
        · exact covers_record rfl (covers_free h (covers_takeFreeExtentFrom
            (fun e hmem => h e (mem_append_left _ hmem)) htaken))

end

/-! ## Changes of state -/

theorem findInState_ok {state : PageAllocationLifecycleState}
    (h : findInState ledger request state = .ok (index, entry)) :
    ledger.allocations[index]? = some entry ∧ entry.state = state := by
  simp only [findInState, guard_eq_ok_iff] at h
  obtain ⟨-, h⟩ := h
  split at h
  · cases h
  · next index' entry' hfound =>
    rw [guard_eq_ok_iff, not_not] at h
    obtain ⟨hstate, h⟩ := h
    obtain ⟨rfl, rfl⟩ := Prod.mk.inj (Except.ok.inj h)
    refine ⟨?_, hstate⟩
    rw [findMutable] at hfound
    split at hfound
    · cases hfound
    · obtain ⟨i, -, hi⟩ := Option.bind_eq_some_iff.mp hfound
      obtain ⟨e, he, heq⟩ := Option.map_eq_some_iff.mp hi
      cases heq
      exact he

section

variable (h : ∀ e ∈ ledger.heldExtents, e.Placed)
include h

theorem covers_markReusable (hcall : markPageAllocationReusable ledger request = .ok after) :
    Covers ledger.heldExtents after.heldExtents := by
  simp only [markPageAllocationReusable, bind_eq_ok_iff, guard_eq_ok_iff] at hcall
  obtain ⟨⟨index, entry⟩, hfound, -, hcall⟩ := hcall
  obtain ⟨hget, hstate⟩ := findInState_ok hfound
  cases hcall
  have hlive : entry.live := by simp [PageAllocationEntry.live, hstate]
  refine (Covers.refl h).perm (.of_eq ?_)
  rw [PageAllocationLedger.heldExtents, PageAllocationLedger.heldExtents,
    PageAllocationLedger.setAllocation, liveExtents_set hget, liveExtents_at hget, if_pos hlive]
  rfl

theorem covers_reclaim (hcall : reclaimReusablePageAllocation ledger request = .ok after) :
    Covers ledger.heldExtents after.heldExtents := by
  simp only [reclaimReusablePageAllocation, bind_eq_ok_iff, guard_eq_ok_iff] at hcall
  obtain ⟨⟨index, entry⟩, hfound, -, hcall⟩ := hcall
  obtain ⟨hget, hstate⟩ := findInState_ok hfound
  cases hcall
  have hlive : entry.live := by simp [PageAllocationEntry.live, hstate]
  rw [PageAllocationLedger.heldExtents, liveExtents_at hget, if_pos hlive] at h ⊢
  have hadded := @covers_addFreeExtent entry.toPageFreeExtent ledger.freeExtents
    (fun e hmem => h e (by simp [hmem])) (h _ (by simp))
  have hframe := hadded.frame [] (liveExtents (ledger.allocations.take index) ++
      liveExtents (ledger.allocations.drop (index + 1)))
    (by simp) (fun e hmem => h e (by simp at hmem ⊢; tauto))
  rw [PageAllocationLedger.heldExtents, PageAllocationLedger.setAllocation,
    liveExtents_set hget, if_neg (by simp [PageAllocationEntry.live]), nil_append]
  refine ⟨hframe.placed, fun page => ?_⟩
  have hsame := hframe.same page
  simp only [pageCover_append, pageCover_cons, pageCover_nil] at hsame ⊢
  omega

/-! ## Runs -/

theorem covers_step (call : PageAllocationCall) :
    Covers ledger.heldExtents (ledger.step call).heldExtents := by
  rw [PageAllocationLedger.step]
  cases hcall : call.perform ledger with
  | error diagnostic => exact Covers.refl h
  | ok after =>
    cases call with
    | reserve request issued => exact covers_reserve h hcall
    | preallocate request issued => exact covers_preallocate h hcall
    | markReusable request => exact covers_markReusable h hcall
    | reclaim request => exact covers_reclaim h hcall
    | compact request =>
      simp only [PageAllocationCall.perform, compactPageFreeSpace, guard_eq_ok_iff] at hcall
      obtain ⟨-, -, hcall⟩ := hcall
      cases hcall
      exact Covers.refl h

theorem covers_run (calls : List PageAllocationCall) :
    Covers ledger.heldExtents (ledger.run calls).heldExtents := by
  induction calls generalizing ledger with
  | nil => exact Covers.refl h
  | cons call rest ih =>
    have hstep := covers_step h call
    exact hstep.trans (ih hstep.placed)

end

/-- The pages of the extents. -/
def pagesOf (extents : List PageFreeExtent) : Set Nat :=
  { page | ∃ extent ∈ extents, page ∈ extent.pages.members }

theorem free_and_live_partition (ledger : PageAllocationLedger)
    (calls : List PageAllocationCall) (hempty : ledger.allocations = [])
    (hdisjoint : ledger.freeExtents.Pairwise fun left right =>
      Disjoint left.pages.members right.pages.members)
    (hends : ∀ extent ∈ ledger.freeExtents,
      extent.startPage.toNat + extent.pageCount.toNat ≤ 2 ^ 64)
    (hzero : 0 ∉ pagesOf ledger.freeExtents) :
    ((ledger.run calls).heldExtents.Pairwise fun left right =>
        Disjoint left.pages.members right.pages.members) ∧
      pagesOf (ledger.run calls).heldExtents = pagesOf ledger.freeExtents := by
  have hheld : ledger.heldExtents = ledger.freeExtents := by
    rw [PageAllocationLedger.heldExtents, hempty]
    exact append_nil _
  have hplaced : ∀ extent ∈ ledger.heldExtents, extent.Placed := by
    intro extent hmem
    rw [hheld] at hmem
    refine ⟨hends extent hmem, fun hstart => ?_⟩
    by_contra hcount
    exact hzero ⟨extent, hmem, Extent.mem_members.mpr ⟨show extent.startPage.toNat ≤ 0 by omega,
        show 0 < extent.startPage.toNat + extent.pageCount.toNat by omega⟩⟩
  have hcovers := covers_run hplaced calls
  rw [hheld] at hcovers
  obtain ⟨hdisjoint', hsame⟩ := PairwiseDisjoint.of_cover (pairwise_map.mpr hdisjoint) hcovers.same
  refine ⟨(pairwise_map (f := PageFreeExtent.pages)).mp hdisjoint', Set.ext fun page => ?_⟩
  simpa [pagesOf] using hsame page

/-! ## A ledger that can be allocated from, and one that loses page zero -/

def sampleRequest (pageCount : UInt64) : PageAllocationRequest :=
  { databaseUuid := ⟨.database, engineUuid 1⟩
    filespaceUuid := ⟨.filespace, engineUuid 2⟩
    creatorTransactionUuid := ⟨.transaction, engineUuid 3⟩
    creatorLocalTransactionId := 5
    pageFamily := "data"
    pageCount
    engineAuthoritative := true }

def sampleRelease (horizon : Nat) : PageReleaseRequest :=
  { allocationUuid := ⟨.object, engineUuid 4⟩
    cleanupHorizonLocalTransactionId := horizon
    engineMgaAuthoritative := true }

/-- One allocation that is released and comes back. -/
def takeAndReturn : List PageAllocationCall :=
  [.reserve (sampleRequest 4) (some ⟨.object, engineUuid 4⟩),
   .markReusable (sampleRelease 6), .reclaim (sampleRelease 6)]

theorem takeAndReturn_partition :
    ((({ freeExtents := [⟨100, 16⟩] } : PageAllocationLedger).run
        takeAndReturn).freeExtents = [⟨100, 16⟩]) ∧
      pagesOf (({ freeExtents := [⟨100, 16⟩] } : PageAllocationLedger).run
        takeAndReturn).heldExtents = pagesOf [⟨100, 16⟩] := by
  refine ⟨by decide +kernel, (free_and_live_partition { freeExtents := [⟨100, 16⟩] }
    takeAndReturn rfl (pairwise_singleton _ _) (by decide) ?_).2⟩
  simp [pagesOf, Extent.mem_members, PageFreeExtent.pages]

/-- Page zero was free and is held by nothing after it has been reclaimed. -/
theorem page_zero_lost :
    0 ∈ pagesOf [⟨0, 16⟩] ∧ 0 ∉ pagesOf (({ freeExtents := [⟨0, 16⟩] } : PageAllocationLedger).run
        takeAndReturn).heldExtents := by
  have hrun : (({ freeExtents := [⟨0, 16⟩] } : PageAllocationLedger).run
      takeAndReturn).heldExtents = [⟨4, 12⟩] := by decide +kernel
  rw [hrun]
  simp [pagesOf, Extent.mem_members, PageFreeExtent.pages]

/-!
## The free map rebuilt from a recovered ledger

The overlap test of the classification looks at one retained range only: the last that
starts below the end of the released entry. Since the ends have been raised to the
largest before them, that range reaches past the start as soon as any retained range
does, nested ones included. So no owned page is released. The released entries are not
compared with each other.
-/

/-- The extents a classification gives to the free map. -/
def releasedExtents (ledger : PageAllocationLedger)
    (classifications : List PageAllocationRecoveryClassification) : List Extent :=
  ((ledger.allocations.zip classifications).filter
    fun entry => entry.2.action = .releaseToFreeMap).map (·.1.pages)

theorem clear_of_not_overlapsRetained {ranges : List (Nat × Nat)} {range : Nat × Nat}
    {largest : Nat} (hsorted : ranges.Pairwise fun left right => left.1 ≤ right.1)
    (hclear : overlapsRetained (prefixMaximumEnds largest ranges) range = false) :
    ∀ retained ∈ ranges, retained.1 < range.2 → max retained.2 largest ≤ range.1 := by
  induction ranges generalizing largest with
  | nil => exact forall_mem_nil _
  | cons first rest ih =>
    obtain ⟨hfirst, hrest⟩ := pairwise_cons.mp hsorted
    by_cases hbelow : first.1 < range.2
    · -- either the first is the range looked at, or the rest carries its end
      have hpast : max first.2 largest ≤ range.1 ∧
          overlapsRetained (prefixMaximumEnds (max first.2 largest) rest) range = false := by
        cases rest with
        | nil => simpa [overlapsRetained, prefixMaximumEnds, hbelow] using hclear
        | cons second others =>
          by_cases hsecond : second.1 < range.2
          · have hbehind : overlapsRetained (prefixMaximumEnds (max first.2 largest)
                (second :: others)) range = false := by
              simpa [overlapsRetained, prefixMaximumEnds, hbelow, hsecond] using hclear
            exact ⟨(Nat.max_le.mp (ih hrest hbehind second mem_cons_self hsecond)).2, hbehind⟩
          · simpa [overlapsRetained, prefixMaximumEnds, hbelow, hsecond] using hclear
      intro retained hmem hstart
      rcases mem_cons.mp hmem with rfl | hmem
      · exact hpast.1
      · have := ih hrest hpast.2 retained hmem hstart
        omega
    · intro retained hmem hstart
      rcases mem_cons.mp hmem with rfl | hmem
      · exact absurd hstart hbelow
      · exact absurd (Nat.lt_of_le_of_lt (hfirst retained hmem) hstart) hbelow

theorem not_overlapsRetained_of_clear {ranges : List (Nat × Nat)} {range : Nat × Nat}
    {largest : Nat} (hlargest : largest ≤ range.1)
    (hclear : ∀ retained ∈ ranges, retained.1 < range.2 → retained.2 ≤ range.1) :
    overlapsRetained (prefixMaximumEnds largest ranges) range = false := by
  induction ranges generalizing largest with
  | nil => rfl
  | cons first rest ih =>
    obtain ⟨hfirst, hrest⟩ := forall_mem_cons.mp hclear
    by_cases hbelow : first.1 < range.2
    · have hend : max first.2 largest ≤ range.1 := Nat.max_le.mpr ⟨hfirst hbelow, hlargest⟩
      have hbehind := ih hend hrest
      rw [overlapsRetained] at hbehind
      rw [overlapsRetained, prefixMaximumEnds, List.takeWhile_cons_of_pos (by simpa using hbelow),
        List.getLast?_cons]
      cases hlast : (((prefixMaximumEnds (max first.2 largest) rest).takeWhile
          fun retained => decide (retained.1 < range.2)).getLast?) with
      | none => simpa using hend
      | some last =>
        rw [hlast] at hbehind
        exact hbehind
    · simp [overlapsRetained, prefixMaximumEnds, hbelow]

section

variable {ledger : PageAllocationLedger} {allocation retained : PageAllocationEntry}

theorem valid_of_released
    (h : (classifyPageAllocationForRecovery allocation).action = .releaseToFreeMap) :
    validAllocationRecoveryRange allocation = true := by
  revert h
  fun_cases classifyPageAllocationForRecovery allocation <;> simp_all

/-- A record that is released on its own account and shares no page with an owner. -/
structure Releasable (ledger : PageAllocationLedger) (allocation : PageAllocationEntry) : Prop where
  alone : (classifyPageAllocationForRecovery allocation).action = .releaseToFreeMap
  once : ledger.allocations.countP (·.allocationUuid.value == allocation.allocationUuid.value) ≤ 1
  ours : sameTypedUuid allocation.databaseUuid ledger.databaseUuid = true ∧
    sameTypedUuid allocation.filespaceUuid ledger.filespaceUuid = true
  owners : ∀ retained ∈ ledger.allocations, retained.isHistory = false →
    validAllocationRecoveryRange retained = true
  clear : ∀ retained ∈ ledger.allocations, retained.isHistory = false →
    Disjoint allocation.pages.members retained.pages.members

/-- Ranges with pages in them are disjoint when one ends before the other starts. -/
theorem disjoint_pages_iff (hvalid : validAllocationRecoveryRange allocation = true)
    (hvalid' : validAllocationRecoveryRange retained = true) :
    Disjoint allocation.pages.members retained.pages.members ↔
      (retained.range.1 < allocation.range.2 → retained.range.2 ≤ allocation.range.1) := by
  have hpos : ∀ entry : PageAllocationEntry, validAllocationRecoveryRange entry = true →
      entry.range.1 < entry.range.2 := by
    intro entry hvalid
    have hcount : entry.pageCount ≠ 0 := by
      rw [validAllocationRecoveryRange] at hvalid
      simp_all
    have hcount : 0 < entry.pageCount.toNat := UInt64.pos_iff_ne_zero.mpr hcount
    exact Nat.lt_add_of_pos_right hcount
  have hfirst := hpos allocation hvalid
  have hsecond := hpos retained hvalid'
  show Disjoint (Set.Ico allocation.range.1 allocation.range.2)
    (Set.Ico retained.range.1 retained.range.2) ↔ _
  rw [Set.Ico_disjoint_Ico]
  omega

theorem overlapsRetained_iff (hvalid : validAllocationRecoveryRange allocation = true)
    (howners : ∀ retained ∈ ledger.allocations, retained.isHistory = false →
      validAllocationRecoveryRange retained = true) :
    overlapsRetained (prefixMaximumEnds 0 ((retainedRanges ledger.allocations).insertionSort
        (toLex · ≤ toLex ·))) allocation.range = false ↔
      ∀ retained ∈ ledger.allocations, retained.isHistory = false →
        Disjoint allocation.pages.members retained.pages.members := by
  have hsorted := (List.pairwise_insertionSort (toLex · ≤ toLex ·)
    (retainedRanges ledger.allocations)).imp (fun h => Prod.Lex.monotone_fst _ _ h)
  constructor
  · intro hclear retained hmem howner
    have hvalid' := howners retained hmem howner
    have hretained : retained.range ∈ retainedRanges ledger.allocations :=
      mem_map_of_mem (mem_filter.mpr ⟨hmem, by simp [howner, hvalid']⟩)
    refine (disjoint_pages_iff hvalid hvalid').mpr fun hstart => ?_
    exact (Nat.max_le.mp (clear_of_not_overlapsRetained hsorted hclear retained.range
      ((mem_insertionSort _).mpr hretained) hstart)).1
  · intro hclear
    refine not_overlapsRetained_of_clear (Nat.zero_le _) fun range hrange => ?_
    obtain ⟨retained, hretained, rfl⟩ := mem_map.mp ((mem_insertionSort _).mp hrange)
    obtain ⟨hmem, howner⟩ := mem_filter.mp hretained
    rw [Bool.and_eq_true, Bool.not_eq_true'] at howner
    exact (disjoint_pages_iff hvalid howner.2).mp (hclear retained hmem howner.1)

/-- The test against one range is as good as the comparison with every owner. -/
theorem released_iff :
    (classifyInLedger ledger allocation).action = .releaseToFreeMap ↔
      Releasable ledger allocation := by
  constructor
  · fun_cases classifyInLedger ledger allocation with
    | case6 _ honce hours hreleased hvalid hclear =>
      intro _
      have howners : ∀ retained ∈ ledger.allocations, retained.isHistory = false →
          validAllocationRecoveryRange retained = true := by
        intro retained hmem howner
        simpa [howner] using List.any_eq_false.mp (Bool.eq_false_iff.mpr hvalid) retained hmem
      have halone := not_not.mp hreleased
      refine ⟨halone, not_lt.mp honce, by simpa using hours, howners, ?_⟩
      exact (overlapsRetained_iff (valid_of_released halone) howners).mp (by simpa using hclear)
    | case3 _ _ _ hother => exact fun h => absurd h hother
    | _ => exact nofun
  · rintro ⟨halone, honce, ⟨hdatabase, hfilespace⟩, howners, hclear⟩
    have hvalid : ¬(ledger.allocations.any fun retained =>
        !retained.isHistory && !validAllocationRecoveryRange retained) = true := by
      rw [List.any_eq_true]
      rintro ⟨retained, hmem, hbad⟩
      rw [Bool.and_eq_true, Bool.not_eq_true', Bool.not_eq_true'] at hbad
      rw [howners retained hmem hbad.1] at hbad
      cases hbad.2
    rw [classifyInLedger, if_neg (not_lt.mpr honce), hdatabase, hfilespace,
      if_neg (by simp), if_neg (not_not.mpr halone), if_neg hvalid,
      (overlapsRetained_iff (valid_of_released halone) howners).mpr hclear, if_neg (by simp)]
    exact halone

theorem releasedExtents_eq {classifications : List PageAllocationRecoveryClassification}
    (h : classifyPageAllocationLedgerForRecovery ledger = .ok classifications) :
    releasedExtents ledger classifications = (ledger.allocations.filter fun allocation =>
      (classifyInLedger ledger allocation).action = .releaseToFreeMap).map (·.pages) := by
  unfold classifyPageAllocationLedgerForRecovery at h
  split at h
  · cases h
  · cases h
    rw [releasedExtents, ← List.map_prod_left_eq_zip, List.filter_map, map_map]
    rfl

end

/-- No owned page is released. The released extents are disjoint from each other
exactly when any two releasable records are. -/
theorem released_clear_of_owners (ledger : PageAllocationLedger)
    {classifications : List PageAllocationRecoveryClassification}
    (h : classifyPageAllocationLedgerForRecovery ledger = .ok classifications) :
    (∀ released ∈ releasedExtents ledger classifications, ∀ retained ∈ ledger.allocations,
        retained.isHistory = false → Disjoint released.members retained.pages.members) ∧
      (PairwiseDisjoint (releasedExtents ledger classifications) ↔
        ledger.allocations.Pairwise fun a b => Releasable ledger a → Releasable ledger b →
          Disjoint a.pages.members b.pages.members) := by
  rw [releasedExtents_eq h]
  constructor
  · intro released hreleased retained hmem howner
    obtain ⟨allocation, hallocation, rfl⟩ := mem_map.mp hreleased
    have hreleasable := released_iff.mp (by simpa using (mem_filter.mp hallocation).2)
    exact hreleasable.clear retained hmem howner
  · rw [PairwiseDisjoint, pairwise_map, List.pairwise_filter]
    simp only [decide_eq_true_eq, released_iff]

def recoveredLedger (calls : List PageAllocationCall) : PageAllocationLedger :=
  ({ freeExtents := [⟨100, 16⟩] } : PageAllocationLedger).run calls

/-- Four pages given out, returned and owned again, and two neighbours given out and
returned behind them. -/
def takeAndReuse : List PageAllocationCall :=
  takeAndReturn ++ [5, 6, 7].map (fun n =>
      .reserve (sampleRequest 4) (some ⟨.object, engineUuid n⟩)) ++
    [6, 7].flatMap fun n =>
      [.markReusable { sampleRelease 6 with allocationUuid := ⟨.object, engineUuid n⟩ },
       .reclaim { sampleRelease 6 with allocationUuid := ⟨.object, engineUuid n⟩ }]

theorem takeAndReuse_released : ∃ classifications,
    classifyPageAllocationLedgerForRecovery (recoveredLedger takeAndReuse) =
        .ok classifications ∧
      releasedExtents (recoveredLedger takeAndReuse) classifications = [⟨104, 4⟩, ⟨108, 4⟩] ∧
      PairwiseDisjoint (releasedExtents (recoveredLedger takeAndReuse) classifications) := by
  refine ⟨_, rfl, by decide +kernel, (released_clear_of_owners _ rfl).2.mpr ?_⟩
  have hapart : (recoveredLedger takeAndReuse).allocations.Pairwise fun a b =>
      (classifyInLedger (recoveredLedger takeAndReuse) a).action = .releaseToFreeMap →
      (classifyInLedger (recoveredLedger takeAndReuse) b).action = .releaseToFreeMap →
        min a.range.2 b.range.2 ≤ max a.range.1 b.range.1 := by decide +kernel
  refine hapart.imp fun hapart hfirst hsecond => ?_
  exact Set.Ico_disjoint_Ico.mpr (hapart (released_iff.mpr hfirst) (released_iff.mpr hsecond))

/-- Four pages given out and returned, and once more under another identity. -/
def takeAndReturnTwice : List PageAllocationCall :=
  takeAndReturn ++
    [.reserve (sampleRequest 4) (some ⟨.object, engineUuid 5⟩),
     .markReusable { sampleRelease 6 with allocationUuid := ⟨.object, engineUuid 5⟩ },
     .reclaim { sampleRelease 6 with allocationUuid := ⟨.object, engineUuid 5⟩ }]

/-- Both records of the pages are released. -/
theorem pages_released_twice : ∃ classifications,
    classifyPageAllocationLedgerForRecovery (recoveredLedger takeAndReturnTwice) =
        .ok classifications ∧
      ¬PairwiseDisjoint (releasedExtents (recoveredLedger takeAndReturnTwice) classifications) := by
  refine ⟨_, rfl, fun h => ?_⟩
  exact absurd (pairwiseDisjoint_iff.mp h 100) (by decide +kernel)

end ScratchBird.PageAllocation
