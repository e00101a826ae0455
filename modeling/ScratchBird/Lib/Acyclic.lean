import Mathlib.Data.Finset.Card
import Mathlib.Data.List.Sort

/-!
# Graphs without cycles

What a change of a graph does to its cycles. A change is said in terms of the two
edge relations: the edges of one node are replaced (`acyclic_iff_of_out`), edges
into one node appear that has none of its own (`acyclic_of_in`), or edges
disappear (`Acyclic.mono`).

The second half is about searches that go from one node to others through a
label, with the same targets for every node that has the label. A path that meets
a label twice can leave the label the first time for where it leaves it the
second time, so a search need not go deeper than there are labels.
-/

namespace ScratchBird.Lib

open Relation List

variable {α ι : Type} {r s : α → α → Prop} {x a b c : α}

def Acyclic (r : α → α → Prop) : Prop := ∀ a, ¬TransGen r a a

theorem Acyclic.mono (h : Acyclic r) (hsub : ∀ a b, s a b → r a b) : Acyclic s :=
  fun a ha => h a (TransGen.mono hsub a a ha)

/-- A path to `x` does not need the edges out of `x`. -/
theorem reach_of_agree (hagree : ∀ a b, a ≠ x → s a b → r a b)
    (h : ReflTransGen s a x) : ReflTransGen r a x := by
  induction h using ReflTransGen.head_induction_on with
  | refl => exact .refl
  | @head a c hac _ ih =>
    by_cases hax : a = x
    · rw [hax]
    · exact ih.head (hagree a c hax hac)

/-- A path either avoids the edges out of `x` or uses one of them. -/
theorem transGen_cases_of_agree (hagree : ∀ a b, a ≠ x → s a b → r a b) (h : TransGen s a c) :
    TransGen r a c ∨ ∃ b, s x b ∧ ReflTransGen s a x ∧ ReflTransGen s b c := by
  induction h with
  | @single b hab =>
    by_cases hax : a = x
    · subst hax
      exact .inr ⟨b, hab, .refl, .refl⟩
    · exact .inl (.single (hagree a b hax hab))
  | @tail b c hab hbc ih =>
    rcases ih with hr | ⟨d, hxd, hax, hdb⟩
    · by_cases hbx : b = x
      · subst hbx
        exact .inr ⟨c, hbc, hab.to_reflTransGen, .refl⟩
      · exact .inl (hr.tail (hagree b c hbx hbc))
    · exact .inr ⟨d, hxd, hax, hdb.tail hbc⟩

/-- Replacing the edges out of `x` makes a cycle exactly when one of the new
targets reaches `x`. -/
theorem acyclic_iff_of_out (hr : Acyclic r)
    (hto : ∀ a b, a ≠ x → s a b → r a b) (hfrom : ∀ a b, a ≠ x → r a b → s a b) :
    Acyclic s ↔ ∀ b, s x b → ¬ReflTransGen r b x := by
  constructor
  · intro hs b hxb hbx
    exact hs x (TransGen.head' hxb (reach_of_agree hfrom hbx))
  · intro hout a ha
    rcases transGen_cases_of_agree hto ha with hcycle | ⟨b, hxb, hax, hba⟩
    · exact hr a hcycle
    · exact hout b hxb (reach_of_agree hto (hba.trans hax))

/-- New edges may lead into a node that no edge leaves. -/
theorem acyclic_of_in (hr : Acyclic r) (hnew : ∀ a b, s a b → r a b ∨ b = x)
    (hsink : ∀ b, ¬s x b) : Acyclic s := by
  have hold : ∀ {a c}, TransGen s a c → c ≠ x → TransGen r a c := by
    intro a c h
    induction h with
    | @single b hab =>
      intro hb
      exact .single ((hnew a b hab).resolve_right hb)
    | @tail b c _ hbc ih =>
      intro hc
      have hb : b ≠ x := by
        intro hb
        rw [hb] at hbc
        exact hsink c hbc
      exact (ih hb).tail ((hnew b c hbc).resolve_right hc)
  intro a ha
  obtain ⟨b, hab, -⟩ := TransGen.head'_iff.mp ha
  have hax : a ≠ x := by
    intro hax
    rw [hax] at hab
    exact hsink b hab
  exact hr a (hold ha hax)

/-! ## Paths through labels -/

/-- At most `n` steps. -/
def Within (r : α → α → Prop) : Nat → α → α → Prop
  | 0, a, b => a = b
  | n + 1, a, b => a = b ∨ ∃ c, r a c ∧ Within r n c b

section

variable [DecidableEq ι] {next : ι → α → α → Prop} {labels : Finset ι} {i : ι}

/-- A step through one of these labels. -/
def Via (next : ι → α → α → Prop) (labels : Finset ι) (a b : α) : Prop := ∃ i ∈ labels, next i a b

/-- A path avoids a label, or does so after the last time it used it. -/
theorem via_erase (h : ReflTransGen (Via next labels) a b) :
    ReflTransGen (Via next (labels.erase i)) a b ∨
      ∃ d c, next i d c ∧ ReflTransGen (Via next (labels.erase i)) c b := by
  induction h using ReflTransGen.head_induction_on with
  | refl => exact .inl .refl
  | @head a c hac _ ih =>
    rcases ih with havoid | hlast
    · obtain ⟨j, hj, hnext⟩ := hac
      by_cases hji : j = i
      · subst hji
        exact .inr ⟨a, c, hnext, havoid⟩
      · exact .inl (havoid.head ⟨j, Finset.mem_erase.mpr ⟨hji, hj⟩, hnext⟩)
    · exact .inr hlast

/-- One step a label is enough. -/
theorem within_card (hone : ∀ i j a b c, next i a b → next j a c → i = j)
    (hshare : ∀ i a b d c, next i a b → next i d c → next i a c)
    (h : ReflTransGen (Via next labels) a b) : Within (Via next labels) labels.card a b := by
  generalize hcard : labels.card = n
  induction n generalizing labels a with
  | zero =>
    obtain rfl := Finset.card_eq_zero.mp hcard
    rcases h.cases_head with rfl | ⟨c, ⟨i, hi, -⟩, -⟩
    · rfl
    · exact absurd hi (Finset.notMem_empty i)
  | succ n ih =>
    rcases h.cases_head with rfl | ⟨c, ⟨i, hi, hac⟩, -⟩
    · exact .inl rfl
    have hsmaller : (labels.erase i).card = n := by
      rw [Finset.card_erase_of_mem hi, hcard, Nat.add_sub_cancel]
    have hweaken : ∀ {m a}, Within (Via next (labels.erase i)) m a b →
        Within (Via next labels) m a b := by
      intro m
      induction m with
      | zero => exact id
      | succ m ihm =>
        rintro a (rfl | ⟨d, ⟨j, hj, had⟩, hdb⟩)
        · exact .inl rfl
        · exact .inr ⟨d, ⟨j, Finset.mem_of_mem_erase hj, had⟩, ihm hdb⟩
    rcases via_erase (i := i) h with havoid | ⟨d, c, hdc, hcb⟩
    · -- the first step has the label, so a path without it has no step
      rcases havoid.cases_head with rfl | ⟨e, ⟨j, hj, hae⟩, -⟩
      · exact .inl rfl
      · exact absurd (hone j i a e _ hae hac) (Finset.mem_erase.mp hj).1
    · exact .inr ⟨c, ⟨i, hi, hshare i a _ d c hac hdc⟩, hweaken (ih hcb hsmaller)⟩

end

/-!
## Searching a graph for a cycle

A depth-first search that keeps the path to the current node and the nodes it has
visited. A node on the path closes a cycle, which is the rest of the path from
that node on; a node that was visited before is not entered again.

That second rule is right because of what visited nodes off the path have in
common: their successors are such nodes too, and none of them lies on a cycle.
`Explored` says so, and a search that finds nothing extends it by its node. The
fuel bounds the length of the path, which has no duplicates and, apart from its
last node, only nodes with successors.
-/

variable {edges : α → List α} {path nodes visited visited' cycle : List α} {current : α}
  {visit : α → List α → Option (List α) × List α} {fuel : Nat}

/-- The first node of the list from which `visit` finds a cycle. -/
def firstCycle (visit : α → List α → Option (List α) × List α) :
    List α → List α → Option (List α) × List α
  | [], visited => (none, visited)
  | next :: rest, visited =>
    match visit next visited with
    | (some cycle, visited) => (some cycle, visited)
    | (none, visited) => firstCycle visit rest visited

def searchCycle [DecidableEq α] (edges : α → List α) :
    Nat → α → List α → List α → Option (List α) × List α
  | 0, _, _, visited => (none, visited)
  | fuel + 1, current, path, visited =>
    if current ∈ path then (some (path.dropWhile (· ≠ current)), visited)
    else if current ∈ visited then (none, visited)
    else
      firstCycle (fun next visited => searchCycle edges fuel next (path ++ [current]) visited)
        (edges current) (current :: visited)

/-! ### What is found is a cycle -/

theorem pairwise_extend {next : α} (h : (path ++ [current]).Pairwise (TransGen r))
    (hnext : r current next) : (path ++ [current] ++ [next]).Pairwise (TransGen r) := by
  rw [pairwise_append]
  refine ⟨h, pairwise_singleton _ _, ?_⟩
  intro a ha b hb
  rw [mem_singleton.mp hb]
  rcases mem_append.mp ha with ha | ha
  · exact ((pairwise_append.mp h).2.2 a ha current (mem_singleton_self _)).tail hnext
  · rw [mem_singleton.mp ha]
    exact .single hnext

theorem cyclic_dropWhile [DecidableEq α] (h : (path ++ [current]).Pairwise (TransGen r))
    (hmem : current ∈ path) :
    path.dropWhile (· ≠ current) ≠ [] ∧
      ∀ a ∈ path.dropWhile (· ≠ current), ∀ b ∈ path.dropWhile (· ≠ current), TransGen r a b := by
  obtain ⟨before, after, rfl, hbefore⟩ := List.eq_append_cons_of_mem hmem
  have hdrop : (before ++ current :: after).dropWhile (· ≠ current) = current :: after := by
    rw [List.dropWhile_append_of_pos, List.dropWhile_cons_of_neg (by simp)]
    intro a ha
    simp only [decide_not, Bool.not_eq_true', decide_eq_false_iff_not]
    intro hac
    exact hbefore (hac ▸ ha)
  rw [append_assoc, pairwise_append] at h
  have hround := pairwise_append.mp h.2.1
  -- every node of the round reaches its start, and the start every node
  have hto : ∀ a ∈ current :: after, TransGen r a current := fun a ha =>
    hround.2.2 a ha current (mem_singleton_self _)
  have hfrom : ∀ b ∈ current :: after, TransGen r current b := by
    intro b hb
    rcases mem_cons.mp hb with rfl | hb
    · exact hto b mem_cons_self
    · exact (pairwise_cons.mp hround.1).1 b hb
  rw [hdrop]
  exact ⟨cons_ne_nil _ _, fun a ha b hb => (hto a ha).trans (hfrom b hb)⟩

theorem firstCycle_some (h : firstCycle visit nodes visited = (some cycle, visited')) :
    ∃ next ∈ nodes, ∃ before after, visit next before = (some cycle, after) := by
  induction nodes generalizing visited with
  | nil => cases h
  | cons next rest ih =>
    rw [firstCycle] at h
    split at h
    · next hvisit =>
      obtain ⟨hcycle, -⟩ := Prod.mk.inj h
      exact ⟨next, mem_cons_self, _, _, hcycle ▸ hvisit⟩
    · obtain ⟨node, hnode, hvisit⟩ := ih h
      exact ⟨node, mem_cons_of_mem _ hnode, hvisit⟩

theorem searchCycle_some [DecidableEq α]
    (hpath : (path ++ [current]).Pairwise (TransGen fun a b => b ∈ edges a))
    (h : searchCycle edges fuel current path visited = (some cycle, visited')) :
    cycle ≠ [] ∧ ∀ a ∈ cycle, ∀ b ∈ cycle, TransGen (fun a b => b ∈ edges a) a b := by
  induction fuel generalizing current path visited visited' with
  | zero => cases h
  | succ fuel ih =>
    rw [searchCycle] at h
    split at h
    · next hmem =>
      obtain ⟨hcycle, -⟩ := Prod.mk.inj h
      rw [← Option.some.inj hcycle]
      exact cyclic_dropWhile hpath hmem
    split at h
    · cases h
    · obtain ⟨next, hnext, _, _, hvisit⟩ := firstCycle_some h
      exact ih (pairwise_extend hpath hnext) hvisit

/-! ### Where nothing is found there is none -/

structure Explored (edges : α → List α) (path visited : List α) : Prop where
  closed : ∀ a ∈ visited, a ∉ path → ∀ b ∈ edges a, b ∈ visited ∧ b ∉ path
  acyclic : ∀ a ∈ visited, a ∉ path → ¬TransGen (fun a b => b ∈ edges a) a a

theorem Explored.reach (h : Explored edges path visited) {a b : α} (ha : a ∈ visited)
    (hoff : a ∉ path) (hab : ReflTransGen (fun a b => b ∈ edges a) a b) :
    b ∈ visited ∧ b ∉ path := by
  induction hab with
  | refl => exact ⟨ha, hoff⟩
  | tail _ hedge ih => exact h.closed _ ih.1 ih.2 _ hedge

theorem Explored.enter (h : Explored edges path visited) (hnew : current ∉ visited) :
    Explored edges (path ++ [current]) (current :: visited) := by
  have hold : ∀ a ∈ current :: visited, a ∉ path ++ [current] → a ∈ visited ∧ a ∉ path := by
    intro a ha hoff
    simp only [mem_append, mem_singleton, not_or] at hoff
    exact ⟨(mem_cons.mp ha).resolve_left hoff.2, hoff.1⟩
  refine ⟨?_, ?_⟩
  · intro a ha hoff b hb
    obtain ⟨ha, hoff⟩ := hold a ha hoff
    obtain ⟨hvisited, hpath⟩ := h.closed a ha hoff b hb
    refine ⟨mem_cons_of_mem _ hvisited, ?_⟩
    simp only [mem_append, mem_singleton, not_or]
    exact ⟨hpath, fun hb => hnew (hb ▸ hvisited)⟩
  · intro a ha hoff
    obtain ⟨ha, hoff⟩ := hold a ha hoff
    exact h.acyclic a ha hoff

/-- A node all of whose successors are explored is explored. -/
theorem Explored.leave (h : Explored edges (path ++ [current]) visited)
    (hnext : ∀ b ∈ edges current, b ∈ visited ∧ b ∉ path ++ [current]) :
    Explored edges path visited := by
  have hsub : ∀ {b}, b ∉ path ++ [current] → b ∉ path := fun hb hmem => hb (mem_append_left _ hmem)
  refine ⟨?_, ?_⟩
  · intro a ha hoff b hb
    by_cases hcurrent : a = current
    · rw [hcurrent] at hb
      exact ⟨(hnext b hb).1, hsub (hnext b hb).2⟩
    · have hoff' : a ∉ path ++ [current] := by
        simp only [mem_append, mem_singleton, not_or]
        exact ⟨hoff, hcurrent⟩
      obtain ⟨hvisited, hpath⟩ := h.closed a ha hoff' b hb
      exact ⟨hvisited, hsub hpath⟩
  · intro a ha hoff hcycle
    by_cases hcurrent : a = current
    · subst hcurrent
      obtain ⟨b, hb, hback⟩ := TransGen.head'_iff.mp hcycle
      have hreach := h.reach (hnext b hb).1 (hnext b hb).2 hback
      exact hreach.2 (mem_append_right _ (mem_singleton_self _))
    · refine h.acyclic a ha ?_ hcycle
      simp only [mem_append, mem_singleton, not_or]
      exact ⟨hoff, hcurrent⟩

/-- A visit that finds nothing has explored its node. -/
def Explores (edges : α → List α) (path : List α)
    (visit : α → List α → Option (List α) × List α) (next : α) : Prop :=
  ∀ visited visited', Explored edges path visited → visit next visited = (none, visited') →
      Explored edges path visited' ∧ visited ⊆ visited' ∧
        next ∈ visited' ∧ next ∉ path

theorem firstCycle_none (hvisit : ∀ next ∈ nodes, Explores edges path visit next)
    (hexplored : Explored edges path visited)
    (h : firstCycle visit nodes visited = (none, visited')) :
    Explored edges path visited' ∧ visited ⊆ visited' ∧ ∀ b ∈ nodes, b ∈ visited' ∧ b ∉ path := by
  induction nodes generalizing visited with
  | nil =>
    obtain rfl : visited = visited' := (Prod.mk.inj h).2
    exact ⟨hexplored, List.Subset.refl _, forall_mem_nil _⟩
  | cons next rest ih =>
    rw [firstCycle] at h
    split at h
    · cases h
    next middle hmiddle =>
    obtain ⟨hmid, hsub, hmem, hoff⟩ := hvisit next mem_cons_self visited middle hexplored hmiddle
    obtain ⟨hend, hsub', hrest⟩ := ih (forall_mem_cons.mp hvisit).2 hmid h
    refine ⟨hend, List.Subset.trans hsub hsub', ?_⟩
    intro b hb
    rcases mem_cons.mp hb with rfl | hb
    · exact ⟨hsub' hmem, hoff⟩
    · exact hrest b hb

theorem explores_searchCycle [DecidableEq α] (hnodes : ∀ a b, b ∈ edges a → a ∈ nodes)
    (hnodup : path.Nodup) (hsub : path ⊆ nodes)
    (hfuel : nodes.length < fuel + path.length) (current : α) :
    Explores edges path (fun next visited => searchCycle edges fuel next path visited) current := by
  induction fuel generalizing path current with
  | zero =>
    have hle := (hnodup.subperm hsub).length_le
    omega
  | succ fuel ih =>
    intro visited visited' hexplored h
    simp only [searchCycle] at h
    split at h
    · cases h
    next hoff =>
    split at h
    · next hmem =>
      obtain rfl := (Prod.mk.inj h).2
      exact ⟨hexplored, List.Subset.refl _, hmem, hoff⟩
    next hnew =>
    have hvisit : ∀ next ∈ edges current, Explores edges (path ++ [current]) (fun next visited =>
          searchCycle edges fuel next (path ++ [current]) visited) next := by
      intro next hnext
      refine ih ?_ ?_ ?_ next
      · exact List.nodup_append.mpr ⟨hnodup, nodup_singleton _,
          fun a ha b hb hab => hoff (by rwa [← mem_singleton.mp hb, ← hab])⟩
      · intro a ha
        rcases mem_append.mp ha with ha | ha
        · exact hsub ha
        · rw [mem_singleton.mp ha]
          exact hnodes current next hnext
      · rw [length_append, List.length_singleton]
        omega
    obtain ⟨hend, hgrow, hnext⟩ := firstCycle_none hvisit (hexplored.enter hnew) h
    exact ⟨hend.leave hnext, fun a ha => hgrow (mem_cons_of_mem _ ha), hgrow mem_cons_self, hoff⟩

/-- From a fresh start, with fuel for a path through all nodes. -/
theorem searchCycle_none [DecidableEq α] (hnodes : ∀ a b, b ∈ edges a → a ∈ nodes)
    (hfuel : nodes.length < fuel) (h : searchCycle edges fuel current [] [] = (none, visited)) :
    ¬TransGen (fun a b => b ∈ edges a) current current := by
  have hempty : Explored edges [] [] := ⟨forall_mem_nil _, forall_mem_nil _⟩
  obtain ⟨hend, -, hmem, hoff⟩ :=
    explores_searchCycle hnodes nodup_nil (List.nil_subset _)
      (by simpa using hfuel) current [] visited hempty h
  exact hend.acyclic current hmem hoff

end ScratchBird.Lib
