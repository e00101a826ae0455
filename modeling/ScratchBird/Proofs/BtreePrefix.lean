import ScratchBird.Proofs.BtreeScan
import ScratchBird.Proofs.KeyEncoding

/-!
# Prefix scans of encoded keys

The bytes the encoder makes of a one-component prefix, handed to a prefix scan of
an index on that column. The scan has a rule of its own about them: bytes that
end in two zeros it takes for a finished key and refuses. The encoder closes no
prefix, but a payload of a descending column may end in complemented `0xff`
bytes, and a descriptor without a collation ends in the low byte of its epoch and
a zero. Those prefixes are refused, and every other one selects the entries
whose payload begins with it.
-/

namespace ScratchBird.Btree

open Lib
open Index (Bytes IndexKeyEncodingComponent SameColumn BeginsValue encodeIndexKey
  buildEncodedPrefixMatcher)

/-- A key whose first component is `c`, of the column of `p`. -/
def KeyOfColumn (p c : IndexKeyEncodingComponent) (key : Bytes) : Prop :=
  SameColumn p c ∧ ∃ rest profile result,
    encodeIndexKey (c :: rest) profile = .ok result ∧ result.encoded = key

/-- No entry is inserted twice, and every key is of the column. -/
def insertsKeysOf (p : IndexKeyEncodingComponent) (tree : IndexBtreePhysicalTree)
    (op : BtreeOperation) : Prop :=
  insertsNewEntries tree op ∧ ∀ cell, op = .insert cell → ∃ c, KeyOfColumn p c cell.encodedKey

variable {p c : IndexKeyEncodingComponent} {profile : Index.IndexKeySemanticProfile}
  {bounds : Index.IndexKeyPrefixBoundsResult} {tree : IndexBtreePhysicalTree} {key : Bytes}

section

variable (hbounds : buildEncodedPrefixMatcher [p] profile = .ok bounds)
include hbounds

theorem matcher_eq :
    bounds.matcherPrefix = kOrderPreservingKeyMagic ++ Index.prefixComponent p := by
  obtain ⟨-, ⟨result, hmatcher, rfl⟩, -⟩ := Index.buildEncodedPrefixBounds_ok hbounds
  exact hmatcher.trans (by simp; rfl)

theorem matcher_starts_iff (hc : KeyOfColumn p c key) :
    bounds.matcherPrefix <+: key ↔ BeginsValue p c := by
  obtain ⟨hcol, rest, keyProfile, result, hresult, rfl⟩ := hc
  rw [matcher_eq hbounds, (Index.encodeIndexKey_ok hresult).2]
  exact (List.prefix_append_right_inj _).trans (Index.prefixComponent_iff hcol)

/-- The scan takes every matcher that does not end in two zeros. -/
theorem validate_matcher_iff (detail : String) :
    validateScanPrefixBytes bounds.matcherPrefix detail = .ok () ↔
      ¬[0, 0] <:+ bounds.matcherPrefix := by
  have hkey : isOrderPreservingEncodedKey bounds.matcherPrefix = true :=
    isOrderPreservingEncodedKey_iff.mpr ⟨_, (matcher_eq hbounds).symm⟩
  have hlength : ¬bounds.matcherPrefix.length ≤ kOrderPreservingKeyMagic.length := by
    rw [matcher_eq hbounds, List.length_append, Index.prefixComponent, List.length_cons]
    omega
  simp only [validateScanPrefixBytes, indexPageError, hkey, hlength,
    ne_nil_of_orderPreserving hkey, not_legacy_of_orderPreserving hkey]
  simp

end

theorem arrange_perm (request : IndexBtreePhysicalScanRequest) (entries : List BtreeEntry) :
    (request.arrange entries).Perm entries := by
  rw [IndexBtreePhysicalScanRequest.arrange]
  cases request.ordering with
  | forward => exact .refl _
  | reverse => exact List.reverse_perm _

open scoped Classical in
/-- A prefix scan is refused exactly when its matcher ends in two zeros, and what
it answers are the entries whose payload begins with the payload of the prefix. -/
theorem prefix_scan_selects {entries : Multiset BtreeEntry}
    (hbounds : buildEncodedPrefixMatcher [p] profile = .ok bounds)
    (h : Reached (insertsKeysOf p) tree) (hentries : reachableEntries tree = .ok entries)
    (ordering : IndexBtreePhysicalScanOrdering) :
    ((∃ result, prefixScanIndexBtreePhysicalTree tree bounds.matcherPrefix ordering 0 =
        .ok result) ↔ ¬[0, 0] <:+ bounds.matcherPrefix) ∧
    ∀ result, prefixScanIndexBtreePhysicalTree tree bounds.matcherPrefix ordering 0 = .ok result →
      (result.locators.map (·.entry) : Multiset BtreeEntry) =
        entries.filter fun e => ∃ c, KeyOfColumn p c e.encodedKey ∧ BeginsValue p c := by
  obtain ⟨leaves, levels, harranged, hkeys⟩ :=
    h.arranged_of (P := fun e => ∃ c, KeyOfColumn p c e.encodedKey) fun _ _ hop => hop
  rw [harranged.reachableEntries_eq] at hentries
  cases hentries
  rw [← validate_matcher_iff hbounds "prefix"]
  refine ⟨⟨fun ⟨result, hresult⟩ => scan_valid hresult, fun hvalid => ?_⟩, fun result hresult => ?_⟩
  · obtain ⟨result, hresult, -⟩ := @Arranged.scan tree leaves levels
      { mode := .prefixed, ordering, scanPrefix := bounds.matcherPrefix } harranged hvalid
    exact ⟨result, hresult⟩
  · have hvalid := scan_valid hresult
    obtain ⟨answer, hanswer, hlocators⟩ := harranged.scan hvalid
    obtain rfl : result = answer := Except.ok.inj (hresult.symm.trans hanswer)
    rw [hlocators, IndexBtreePhysicalScanRequest.truncate, if_pos rfl,
      Multiset.coe_eq_coe.mpr (arrange_perm _ _), harranged.asked_eq_filter hvalid]
    refine Multiset.filter_congr fun e he => ?_
    obtain ⟨c, hc⟩ := hkeys e he
    refine ⟨fun hasks => ⟨c, hc, (matcher_starts_iff hbounds hc).mp hasks⟩, ?_⟩
    rintro ⟨c', hc', hbegins⟩
    exact (matcher_starts_iff hbounds hc').mpr hbegins

/-- A component of a descending column. -/
def descendingComponent (payload : Bytes) : IndexKeyEncodingComponent :=
  { Index.sampleComponent payload false with sortDirection := .descending }

/-- A cell with the key of a payload of that column. -/
def columnCell (payload : Bytes) (n : UInt8) : IndexBtreeCell :=
  { sampleCell [] n with
    encodedKey := match encodeIndexKey [descendingComponent payload] {} with
      | .ok key => key.encoded
      | .error _ => [] }

/-- Four keys on two leaves. -/
def columnRun : List BtreeOperation :=
  [.insert (columnCell [0x61] 1), .insert (columnCell [0x61, 0x62] 2),
   .insert (columnCell [0x63] 3), .insert (columnCell [0x61, 0x63] 4)]

theorem columnCell_key {payload : Bytes} {n : UInt8}
    (h : (encodeIndexKey [descendingComponent payload] {}).isOk = true) :
    KeyOfColumn (descendingComponent [0x61]) (descendingComponent payload)
      (columnCell payload n).encodedKey := by
  refine ⟨⟨rfl, rfl, rfl, rfl, rfl, rfl⟩, [], {}, ?_⟩
  rw [columnCell]
  cases hkey : encodeIndexKey [descendingComponent payload] {} with
  | error d =>
    rw [hkey] at h
    cases h
  | ok key => exact ⟨key, rfl, rfl⟩

theorem columnRun_admitted : ∀ fresh, initializeIndexBtreePhysicalTree sampleIndex 560 = .ok fresh →
    Admitted (insertsKeysOf (descendingComponent [0x61])) BtreeOperation.after columnRun fresh := by
  have hnew : ∀ fresh, initializeIndexBtreePhysicalTree sampleIndex 560 = .ok fresh →
      Admitted insertsNewEntries BtreeOperation.after columnRun fresh := by
    decide +kernel
  refine fun fresh hfresh => (hnew fresh hfresh).and ?_
  simp only [columnRun, List.forall_mem_cons, BtreeOperation.insert.injEq, forall_eq']
  exact ⟨fun _ => ⟨_, columnCell_key rfl⟩, fun _ => ⟨_, columnCell_key rfl⟩,
    fun _ => ⟨_, columnCell_key rfl⟩, fun _ => ⟨_, columnCell_key rfl⟩, List.forall_mem_nil _⟩

theorem columnRun_prefix_scan : ∃ bounds tree result,
    buildEncodedPrefixMatcher [descendingComponent [0x61]] {} = .ok bounds ∧
      runFrom sampleIndex 560 columnRun = .ok tree ∧
      prefixScanIndexBtreePhysicalTree tree bounds.matcherPrefix .reverse 0 = .ok result ∧
      (columnCell [0x61, 0x62] 2).entry ∈ result.locators.map (·.entry) ∧
      (columnCell [0x63] 3).entry ∉ result.locators.map (·.entry) := by
  classical
  obtain ⟨tree, hrun, entries, hentries, hmem⟩ : ∃ tree,
      runFrom sampleIndex 560 columnRun = .ok tree ∧
        ∃ entries, reachableEntries tree = .ok entries ∧
          (columnCell [0x61, 0x62] 2).entry ∈ entries := by
    decide +kernel
  obtain ⟨bounds, hbounds, hends, hother⟩ : ∃ bounds,
      buildEncodedPrefixMatcher [descendingComponent [0x61]] {} = .ok bounds ∧
        ¬[0, 0] <:+ bounds.matcherPrefix ∧
        ¬bounds.matcherPrefix <+: (columnCell [0x63] 3).encodedKey := by
    decide +kernel
  obtain ⟨hanswers, hexact⟩ := prefix_scan_selects hbounds
    (reached_of_admitted columnRun_admitted hrun) hentries .reverse
  obtain ⟨result, hresult⟩ := hanswers.mpr hends
  have hin : ∀ e, e ∈ result.locators.map (·.entry) ↔ e ∈ entries ∧
      ∃ c, KeyOfColumn (descendingComponent [0x61]) c e.encodedKey ∧
        BeginsValue (descendingComponent [0x61]) c := by
    intro e
    rw [← Multiset.mem_coe, hexact result hresult, Multiset.mem_filter]
  refine ⟨bounds, tree, result, hbounds, hrun, hresult, (hin _).mpr ⟨hmem,
    descendingComponent [0x61, 0x62], @columnCell_key _ 2 rfl, rfl, fun _ => by decide⟩,
    fun hmem => ?_⟩
  obtain ⟨-, c, hc, hbegins⟩ := (hin _).mp hmem
  exact hother ((matcher_starts_iff hbounds hc).mpr hbegins)

/-- The prefix `ff ff` of a descending column is refused, in an index that holds
the key of this payload. And where a key was inserted three times, the scan for
the key before it answers nothing. -/
theorem prefix_scan_refuses_matcher :
    (∃ bounds, buildEncodedPrefixMatcher [descendingComponent [0xff, 0xff]] {} = .ok bounds ∧
      ∃ key, encodeIndexKey [descendingComponent [0xff, 0xff]] {} = .ok key ∧
        ∃ tree, runFrom sampleIndex 512
            [.insert { sampleCell [] 1 with encodedKey := key.encoded }] = .ok tree ∧
          (prefixScanIndexBtreePhysicalTree tree bounds.matcherPrefix .forward 0).isOk = false) ∧
    ∃ bounds, buildEncodedPrefixMatcher [descendingComponent [0x61]] {} = .ok bounds ∧
      ∃ tree, runFrom sampleIndex 560 [.insert (columnCell [0x61] 1),
          .insert (columnCell [0x60] 2), .insert (columnCell [0x60] 2),
          .insert (columnCell [0x60] 2)] = .ok tree ∧
        ∃ result, prefixScanIndexBtreePhysicalTree tree bounds.matcherPrefix .forward 0 =
            .ok result ∧ result.locators = [] := by
  decide +kernel

end ScratchBird.Btree
