import ScratchBird.Proofs.LockWakeup

/-!
# What the deadlock search sees

The search runs on a graph it builds from the waits: an owner points to the owners
of the grants that its waits remember as blockers, those that are still there. On
that graph it is complete (`findFirstCycle_nil`): where it finds nothing there is
no cycle. What it finds is a cycle, so each owner it names has a wait
(`findFirstCycle_edges`), and among local waits a search without a victim is one
that found nothing (`detect_none`).

Whether the graph is the right one is another question. That is a matter of what
the waits remember, and is left to the module on deadlocks.
-/

namespace ScratchBird.Mga

open Lib Relation List

variable {grants : Map String GrantRecord} {waits : Map String WaitRecord} {a b : String}
  {w : WaitRecord} {s : MGALockWaitLifecycle}

/-! ## The graph -/

theorem mem_waitForEdges :
    b ∈ waitForEdges grants waits a ↔
      b ≠ a ∧ ∃ id w, waits.lookup id = some w ∧ w.wait.ownerUuid = a ∧
        ∃ grantId ∈ w.wait.blockedByGrantIds, ∃ g,
          grants.lookup grantId = some g ∧ g.grant.ownerUuid = b := by
  simp only [waitForEdges, mem_insertionSort, List.mem_dedup,
    mem_filter, List.mem_filterMap, mem_flatMap, Map.mem_values,
    beq_iff_eq, bne_iff_ne, Option.map_eq_some_iff]
  constructor
  · rintro ⟨⟨grantId, ⟨w, ⟨⟨id, hw⟩, howner⟩, hid⟩, g, hg, hb⟩, hne⟩
    exact ⟨hne, id, w, hw, howner, grantId, hid, g, hg, hb⟩
  · rintro ⟨hne, id, w, hw, howner, grantId, hid, g, hg, hb⟩
    exact ⟨⟨grantId, ⟨w, ⟨⟨id, hw⟩, howner⟩, hid⟩, g, hg, hb⟩, hne⟩

theorem mem_keys_buildWaitForGraph :
    a ∈ (buildWaitForGraph grants waits).map Prod.fst ↔
      ∃ id w, waits.lookup id = some w ∧ w.wait.ownerUuid = a := by
  simp only [buildWaitForGraph, List.map_map, mem_map, Function.comp_apply,
    exists_eq_right, mem_insertionSort, List.mem_dedup, Map.mem_values]
  constructor
  · rintro ⟨w, ⟨id, hw⟩, howner⟩
    exact ⟨id, w, hw, howner⟩
  · rintro ⟨id, w, hw, howner⟩
    exact ⟨w, ⟨id, hw⟩, howner⟩

theorem graphEdges_map {nodes : List String} {f : String → List String} :
    graphEdges (nodes.map fun node => (node, f node)) a =
      if a ∈ nodes then f a else [] := by
  induction nodes with
  | nil => rfl
  | cons node rest ih =>
    rw [graphEdges, map_cons]
    by_cases hnode : node = a
    · rw [List.find?_cons_of_pos (by simpa using hnode)]
      simp [hnode]
    · rw [find?_cons_of_neg (by simpa using hnode), ← graphEdges, ih]
      simp [Ne.symm hnode]

theorem graphEdges_buildWaitForGraph :
    graphEdges (buildWaitForGraph grants waits) = waitForEdges grants waits := by
  funext a
  rw [buildWaitForGraph, graphEdges_map]
  split
  · rfl
  next hnot =>
  symm
  rw [List.eq_nil_iff_forall_not_mem]
  intro b hb
  obtain ⟨-, id, w, hw, howner, -⟩ := mem_waitForEdges.mp hb
  refine hnot ?_
  rw [mem_insertionSort, List.mem_dedup, ← howner]
  exact mem_map_of_mem (Map.mem_values.mpr ⟨id, hw⟩)

/-! ## The search -/

theorem findFirstCycle_nil (h : findFirstCycle (buildWaitForGraph grants waits) = []) :
    Acyclic fun a b => b ∈ waitForEdges grants waits a := by
  have hkeys : ∀ a b, b ∈ waitForEdges grants waits a →
      a ∈ (buildWaitForGraph grants waits).map Prod.fst := by
    intro a b hb
    obtain ⟨-, id, w, hw, howner, -⟩ := mem_waitForEdges.mp hb
    exact mem_keys_buildWaitForGraph.mpr ⟨id, w, hw, howner⟩
  rw [findFirstCycle, graphEdges_buildWaitForGraph] at h
  intro a ha
  obtain ⟨b, hab, -⟩ := TransGen.head'_iff.mp ha
  obtain ⟨entry, hentry, rfl⟩ := mem_map.mp (hkeys a b hab)
  split at h
  · next cycle hfound =>
    obtain ⟨start, -, hstart⟩ := List.exists_of_findSome?_eq_some hfound
    have hcycle := searchCycle_some (pairwise_singleton _ _) (Prod.ext hstart rfl)
    have hlength := congrArg List.length h
    rw [List.length_insertionSort] at hlength
    exact hcycle.1 (List.length_eq_zero_iff.mp hlength)
  · next hnone =>
    have hsearch := List.findSome?_eq_none_iff.mp hnone entry hentry
    exact searchCycle_none hkeys (by rw [length_map]; omega) (Prod.ext hsearch rfl) ha

theorem findFirstCycle_edges (h : a ∈ findFirstCycle (buildWaitForGraph grants waits)) :
    ∃ b, b ∈ waitForEdges grants waits a := by
  rw [findFirstCycle, graphEdges_buildWaitForGraph] at h
  split at h
  · next cycle hfound =>
    obtain ⟨start, -, hstart⟩ := List.exists_of_findSome?_eq_some hfound
    have hcycle := searchCycle_some (pairwise_singleton _ _) (Prod.ext hstart rfl)
    have ha := (mem_insertionSort _).mp h
    obtain ⟨b, hab, -⟩ := TransGen.head'_iff.mp (hcycle.2 a ha a ha)
    exact ⟨b, hab⟩
  · cases h

/-! ## The victim -/

theorem waitForOwner_some (h : waitForOwner waits a = some w) :
    (∃ id, waits.lookup id = some w) ∧ w.wait.ownerUuid = a := by
  have hfold : ∀ v, waitForOwner waits a = some v →
      v ∈ Map.values waits ∧ v.wait.ownerUuid = a := by
    refine List.foldlRecOn (Map.values waits) _ (motive := fun best => ∀ v, best = some v →
        v ∈ Map.values waits ∧ v.wait.ownerUuid = a) (by simp) ?_
    intro best hbest record hrecord v hv
    split at hv
    · exact hbest v hv
    next howner =>
    have hnew : some record = some v → v ∈ Map.values waits ∧ v.wait.ownerUuid = a := by
      intro heq
      rw [← Option.some.inj heq]
      exact ⟨hrecord, not_not.mp howner⟩
    split at hv
    · exact hnew hv
    split at hv
    · exact hnew hv
    · exact hbest v hv
  obtain ⟨hmem, howner⟩ := hfold w h
  exact ⟨Map.mem_values.mp hmem, howner⟩

theorem waitForOwner_isSome {id : String} (hw : waits.lookup id = some w)
    (howner : w.wait.ownerUuid = a) : (waitForOwner waits a).isSome := by
  obtain ⟨before, after, hvalues⟩ := List.append_of_mem (Map.mem_values.mpr ⟨id, hw⟩)
  rw [waitForOwner, hvalues, foldl_append, foldl_cons]
  refine List.foldlRecOn after _ (motive := fun best : Option WaitRecord => best.isSome) ?_ ?_
  · rw [if_neg (not_not.mpr howner)]
    split
    · rfl
    split
    · rfl
    · next hfirst _ => rw [hfirst]; rfl
  · intro best hbest record _
    split
    · exact hbest
    split
    · rfl
    split
    · rfl
    · exact hbest

theorem selectVictim_mem {first : String} {others : List String} :
    selectVictim grants waits (first :: others) ∈ first :: others := by
  refine List.foldlRecOn (first :: others) _
    (motive := fun victim => victim ∈ first :: others) mem_cons_self ?_
  intro victim hvictim owner howner
  split
  · exact howner
  · exact hvictim

namespace MGALockWaitLifecycle

theorem victimWait_some (h : s.victimWait = some w) : ∃ id, s.waits.lookup id = some w := by
  rw [victimWait] at h
  split at h
  · cases h
  split at h
  · cases h
  · exact (waitForOwner_some h).1

/-- Among local waits, a search without a victim has found nothing: every owner of
a cycle waits. -/
theorem victimWait_none
    (hlocal : ∀ id w, s.waits.lookup id = some w → w.wait.distributedWait = false)
    (h : s.victimWait = none) : findFirstCycle (buildWaitForGraph s.grants s.waits) = [] := by
  rw [victimWait] at h
  split at h
  · next hnil => exact hnil
  next first others hcycle =>
  split at h
  · next hdistributed =>
    rw [cycleContainsDistributedWait, any_eq_true] at hdistributed
    obtain ⟨owner, -, hwait⟩ := hdistributed
    cases hfound : waitForOwner s.waits owner with
    | none =>
      rw [hfound] at hwait
      cases hwait
    | some w =>
      obtain ⟨⟨id, hw⟩, -⟩ := waitForOwner_some hfound
      rw [hfound, Option.map_some, hlocal id w hw] at hwait
      cases hwait
  · have hvictim : selectVictim s.grants s.waits (first :: others) ∈
        findFirstCycle (buildWaitForGraph s.grants s.waits) := by
      rw [hcycle]
      exact selectVictim_mem
    obtain ⟨b, hb⟩ := findFirstCycle_edges hvictim
    obtain ⟨-, id, w, hw, howner, -⟩ := mem_waitForEdges.mp hb
    have hsome := waitForOwner_isSome hw howner
    rw [h] at hsome
    cases hsome

end MGALockWaitLifecycle

end ScratchBird.Mga
