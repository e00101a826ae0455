import ScratchBird.Index.KeyEncoding
import ScratchBird.Lib.Refusal

/-!
# Encoded keys compare as their components do

Component by component, the encodings of two keys over the same columns are
separated in the sense of `Lib.OrderedCode`: the ranks settle a null against a
value, the descriptor identities are equal, and the payloads are escaped words,
complemented or not. So the comparison of the keys is the lexicographic one.

The payload that counts is the one the encoder reads. For a version 7 UUID
component that is the UUID, for a case-folded one the folded payload, and for a
null nothing.
-/

namespace ScratchBird.Index

open Lib List

variable {a b c : IndexKeyEncodingComponent} {as bs cs : List IndexKeyEncodingComponent}
  {result result' : IndexKeyEncodingResult}

/-- Two components of one column. -/
structure SameColumn (a b : IndexKeyEncodingComponent) : Prop where
  kind : a.kind = b.kind
  typeDescriptorUuid : a.typeDescriptorUuid = b.typeDescriptorUuid
  typeDescriptorEpoch : a.typeDescriptorEpoch = b.typeDescriptorEpoch
  collationUuid : a.collationUuid = b.collationUuid
  sortDirection : a.sortDirection = b.sortDirection
  nullPlacement : a.nullPlacement = b.nullPlacement

/-- The payload the encoder puts in order. -/
def orderPayload (c : IndexKeyEncodingComponent) : Bytes := payloadForOrder (payloadComponent c)

/-- The order of two values of one column, with their payloads read by
`payload`. -/
def compareComponents (payload : IndexKeyEncodingComponent → Bytes)
    (a b : IndexKeyEncodingComponent) : Ordering :=
  match a.isNull, b.isNull with
  | true, true => .eq
  | true, false => if a.nullPlacement = .nullsFirst then .lt else .gt
  | false, true => if a.nullPlacement = .nullsFirst then .gt else .lt
  | false, false =>
    if a.sortDirection = .descending then
      (compare (payload a) (payload b)).swap
    else compare (payload a) (payload b)

def compareComponentLists (payload : IndexKeyEncodingComponent → Bytes) :
    List IndexKeyEncodingComponent → List IndexKeyEncodingComponent → Ordering
  | a :: as, b :: bs => (compareComponents payload a b).then (compareComponentLists payload as bs)
  | _, _ => .eq

def orderingSign : Ordering → Int
  | .lt => -1
  | .eq => 0
  | .gt => 1

/-! ## What the encoder accepts and writes -/

theorem encodeComponent_ok (h : encodeComponent result c = .ok result') :
    c.nullPlacement ≠ .referenceProfileDefault ∧
      result'.encoded = result.encoded ++ encodedComponent c := by
  rw [encodeComponent] at h
  split at h
  · cases h
  next haccepted =>
  obtain ⟨time, _, h⟩ := bind_eq_ok_iff.mp h
  cases h
  simp only [componentRefusal, guard_eq_none_iff] at haccepted
  exact ⟨haccepted.2.1, rfl⟩

theorem encodeComponents_ok (h : cs.foldlM encodeComponent result = .ok result') :
    (∀ c ∈ cs, c.nullPlacement ≠ .referenceProfileDefault) ∧
      result'.encoded = result.encoded ++ cs.flatMap encodedComponent := by
  induction cs generalizing result with
  | nil =>
    cases h
    exact ⟨forall_mem_nil _, by simp⟩
  | cons c cs ih =>
    obtain ⟨mid, hmid, hrest⟩ := bind_eq_ok_iff.mp h
    obtain ⟨hplace, hbytes⟩ := encodeComponent_ok hmid
    obtain ⟨hplaces, hall⟩ := ih hrest
    refine ⟨forall_mem_cons.mpr ⟨hplace, hplaces⟩, ?_⟩
    rw [hall, hbytes, flatMap_cons, append_assoc]

theorem encodeIndexKey_ok {profile : IndexKeySemanticProfile}
    (h : encodeIndexKey cs profile = .ok result) :
    (∀ c ∈ cs, c.nullPlacement ≠ .referenceProfileDefault) ∧
      result.encoded = kOrderPreservingMagic ++ cs.flatMap encodedComponent := by
  rw [encodeIndexKey, guard_eq_ok_iff, guard_eq_ok_iff] at h
  exact encodeComponents_ok h.2.2

/-! ## Separation -/

theorem compare_complement (x y : UInt8) : compare (~~~x) (~~~y) = (compare x y).swap := by
  have hlt : ∀ x y : UInt8, x < y → ~~~y < ~~~x := by
    intro x y h
    rw [UInt8.lt_iff_toNat_lt] at h ⊢
    rw [UInt8.toNat_not, UInt8.toNat_not, UInt8.size]
    have hy := y.toNat_lt
    omega
  cases hxy : compare x y with
  | lt =>
    rw [Std.compare_eq_gt.mpr (hlt x y (Std.compare_eq_lt.mp hxy))]
    rfl
  | eq =>
    rw [Std.LawfulEqOrd.eq_of_compare hxy, Std.ReflOrd.compare_self]
    rfl
  | gt =>
    rw [Std.compare_eq_lt.mpr (hlt y x (Std.compare_eq_gt.mp hxy))]
    rfl

theorem separate_escapedPayload (p q : Bytes) :
    separate (escapedPayload p) (escapedPayload q) = some (compare p q) := by
  refine separate_terminated (fun x hx => ?_) (by decide) p q
  rw [Std.compare_eq_lt]
  have hne : x.toNat ≠ 0 := fun h0 => hx (UInt8.toNat_inj.mp h0)
  show 0 < x.toNat
  omega

theorem separate_comparablePayload (h : a.sortDirection = b.sortDirection) :
    separate (comparablePayloadForSort a) (comparablePayloadForSort b) =
      some (if a.sortDirection = .descending then
        (compare (payloadForOrder a) (payloadForOrder b)).swap
      else compare (payloadForOrder a) (payloadForOrder b)) := by
  rw [comparablePayloadForSort, comparablePayloadForSort,
    complementIfDescending, complementIfDescending, ← h]
  have hseparated := separate_escapedPayload (payloadForOrder a) (payloadForOrder b)
  split
  · exact separate_map_swap compare_complement hseparated
  · exact hseparated

theorem SameColumn.identity (h : SameColumn a b) :
    componentDescriptorIdentity a = componentDescriptorIdentity b := by
  rw [componentDescriptorIdentity, componentDescriptorIdentity, h.kind,
    h.typeDescriptorUuid, h.typeDescriptorEpoch, h.collationUuid]

theorem sortDirection_payloadComponent : (payloadComponent c).sortDirection = c.sortDirection := by
  rw [payloadComponent]
  split <;> rfl

theorem separate_encodedComponent (h : SameColumn a b)
    (hplace : a.nullPlacement ≠ .referenceProfileDefault) :
    separate (encodedComponent a) (encodedComponent b) =
      some (compareComponents orderPayload a b) := by
  rw [encodedComponent, encodedComponent, nullRankFor, nullRankFor, h.identity,
    ← h.nullPlacement, compareComponents]
  cases ha : a.isNull with
  | true =>
    cases hb : b.isNull with
    | true => exact separate_self
    | false =>
      cases hp : a.nullPlacement with
      | nullsFirst => rfl
      | nullsLast => rfl
      | referenceProfileDefault => exact absurd hp hplace
  | false =>
    cases hb : b.isNull with
    | true =>
      cases hp : a.nullPlacement with
      | nullsFirst => rfl
      | nullsLast => rfl
      | referenceProfileDefault => exact absurd hp hplace
    | false =>
      have hsort : (payloadComponent a).sortDirection = (payloadComponent b).sortDirection := by
        rw [sortDirection_payloadComponent, sortDirection_payloadComponent, h.sortDirection]
      have hpayload := separate_comparablePayload hsort
      rw [sortDirection_payloadComponent] at hpayload
      have hrest := separate_append (separate_self (u := componentDescriptorIdentity b))
        fun _ => hpayload
      exact separate_append (u := [kNonNullRank]) (v := [kNonNullRank]) separate_self fun _ => hrest

theorem separate_encodedComponents (hcols : List.Forall₂ SameColumn as bs)
    (hplaces : ∀ a ∈ as, a.nullPlacement ≠ .referenceProfileDefault) :
    separate (as.flatMap encodedComponent) (bs.flatMap encodedComponent) =
      some (compareComponentLists orderPayload as bs) := by
  induction hcols with
  | nil => rfl
  | cons hab _ ih =>
    rw [forall_mem_cons] at hplaces
    exact separate_append (separate_encodedComponent hab hplaces.1) fun _ => ih hplaces.2

/-! ## Comparison -/

theorem compareUnsignedBytes_eq (p q : Bytes) :
    compareUnsignedBytes p q = orderingSign (compare p q) := by
  induction p generalizing q with
  | nil =>
    cases q with
    | nil => rfl
    | cons y q => rfl
  | cons x p ih =>
    cases q with
    | nil => rfl
    | cons y q =>
      rw [compareUnsignedBytes, List.compare_cons_cons]
      cases hxy : compare x y with
      | lt =>
        rw [if_pos (Std.compare_eq_lt.mp hxy)]
        rfl
      | gt =>
        have hgt := Std.compare_eq_gt.mp hxy
        rw [if_neg (fun hlt => absurd hlt (UInt8.lt_asymm hgt)), if_pos hgt]
        rfl
      | eq =>
        rw [Std.LawfulEqOrd.eq_of_compare hxy,
          if_neg (UInt8.lt_irrefl y), if_neg (UInt8.lt_irrefl y)]
        exact ih q

theorem compareEncodedIndexKeys_magic (p q : Bytes) :
    compareEncodedIndexKeys (kOrderPreservingMagic ++ p) (kOrderPreservingMagic ++ q) =
      .ok (orderingSign (compare p q)) := by
  rw [← compareUnsignedBytes_eq]
  rfl

theorem orderingSign_eq_zero_iff {o : Ordering} : orderingSign o = 0 ↔ o = .eq := by
  cases o <;> decide

/-- The parts of a component that decide equality. -/
def SameValue (a b : IndexKeyEncodingComponent) : Prop :=
  a.isNull = b.isNull ∧ (a.isNull = false → orderPayload a = orderPayload b)

theorem compareComponents_eq_iff : compareComponents orderPayload a b = .eq ↔ SameValue a b := by
  rw [compareComponents, SameValue]
  cases ha : a.isNull with
  | true =>
    cases hb : b.isNull with
    | true => simp
    | false =>
      simp only [Bool.true_eq_false, false_and]
      split <;> decide
  | false =>
    cases hb : b.isNull with
    | true =>
      simp only [Bool.false_eq_true, false_and]
      split <;> decide
    | false =>
      simp only [true_and, forall_const]
      split
      · rw [Ordering.swap_eq_eq, Std.compare_eq_iff_eq]
      · rw [Std.compare_eq_iff_eq]

theorem compareComponentLists_eq_iff (hlen : as.length = bs.length) :
    compareComponentLists orderPayload as bs = .eq ↔ List.Forall₂ SameValue as bs := by
  induction as generalizing bs with
  | nil =>
    rw [List.length_eq_zero_iff.mp hlen.symm]
    exact iff_of_true rfl .nil
  | cons a as ih =>
    cases bs with
    | nil => cases hlen
    | cons b bs =>
      rw [compareComponentLists, Ordering.then_eq_eq, List.forall₂_cons, compareComponents_eq_iff,
        ih (Nat.succ.inj hlen)]

/-- Encoded keys over the same columns compare as their component lists do, and
are equal exactly when the components agree on nulls and on the payloads that
count. -/
theorem compareEncodedIndexKeys_order (profile profile' : IndexKeySemanticProfile)
    {left right : IndexKeyEncodingResult} (hleft : encodeIndexKey as profile = .ok left)
    (hright : encodeIndexKey bs profile' = .ok right) (hcols : List.Forall₂ SameColumn as bs) :
    compareEncodedIndexKeys left.encoded right.encoded =
        .ok (orderingSign (compareComponentLists orderPayload as bs)) ∧
      (compareEncodedIndexKeys left.encoded right.encoded = .ok 0 ↔
        List.Forall₂ SameValue as bs) := by
  obtain ⟨hplaces, hl⟩ := encodeIndexKey_ok hleft
  obtain ⟨_, hr⟩ := encodeIndexKey_ok hright
  have hcompare : compareEncodedIndexKeys left.encoded right.encoded =
      .ok (orderingSign (compareComponentLists orderPayload as bs)) := by
    rw [hl, hr, compareEncodedIndexKeys_magic,
      compare_of_separate (separate_encodedComponents hcols hplaces)]
  refine ⟨hcompare, ?_⟩
  rw [hcompare, Except.ok.injEq, orderingSign_eq_zero_iff,
    compareComponentLists_eq_iff hcols.length_eq]

/-- A scalar column of one byte strings. -/
def sampleComponent (payload : Bytes) (caseFolded : Bool) :
    IndexKeyEncodingComponent :=
  { typeDescriptorUuid := ⟨.object, engineUuid 1⟩, caseFolded, payload }

theorem sameColumn_sampleComponent (p q : Bytes) (folded folded' : Bool) :
    SameColumn (sampleComponent p folded) (sampleComponent q folded') :=
  ⟨rfl, rfl, rfl, rfl, rfl, rfl⟩

theorem zero_byte_before_longer :
    ∃ left right, encodeIndexKey [sampleComponent [0] false] {} = .ok left ∧
      encodeIndexKey [sampleComponent [0, 0] false] {} = .ok right ∧
      compareEncodedIndexKeys left.encoded right.encoded = .ok (-1) :=
  ⟨_, _, rfl, rfl, (compareEncodedIndexKeys_order {} {} rfl rfl
    (.cons (sameColumn_sampleComponent [0] [0, 0] false false) .nil)).1⟩

/-- Case folding makes keys equal whose payloads are not. -/
theorem folded_payloads_collide :
    ∃ left right, encodeIndexKey [sampleComponent [0x41] true] {} = .ok left ∧
      encodeIndexKey [sampleComponent [0x61] true] {} = .ok right ∧
      List.Forall₂ SameColumn [sampleComponent [0x41] true] [sampleComponent [0x61] true] ∧
      compareEncodedIndexKeys left.encoded right.encoded = .ok 0 ∧
      orderingSign (compareComponentLists (·.payload)
        [sampleComponent [0x41] true] [sampleComponent [0x61] true]) = -1 ∧
      (sampleComponent [0x41] true).payload ≠ (sampleComponent [0x61] true).payload :=
  ⟨_, _, rfl, rfl, .cons (sameColumn_sampleComponent _ _ _ _) .nil, by decide,
    by decide, by decide⟩

/-!
## What the bounds of a prefix select

A key that begins with the matcher lies between the bounds, so the bounds add
nothing to the matcher, and the question is which keys begin with it. For the
last component of the prefix the answer is the one to expect: its payload is
escaped and left open, and the closed payloads it begins are those of its
continuations.

The components before the last are left open too, and there the two encoders
disagree. In a key such a payload is followed by its closing bytes, in the
matcher by the rank of the next component. A null has no payload to close. So the
bounds select what the prefix stands for exactly when all components before the
last are null; otherwise the prefix does not even find itself.
-/

variable {p : IndexKeyEncodingComponent} {ps : List IndexKeyEncodingComponent}
  {profile : IndexKeySemanticProfile} {bounds result result' : IndexKeyPrefixBoundsResult}
  {code key code' key' label : String} {u v rest : Bytes}

/-- Both values are null, or the second begins with the first. -/
def BeginsValue (p c : IndexKeyEncodingComponent) : Prop :=
  p.isNull = c.isNull ∧ (p.isNull = false → orderPayload p <+: orderPayload c)

/-- What a prefix stands for: equal components before the last, and a beginning
of the component there. -/
def MatchesPrefix : List IndexKeyEncodingComponent → List IndexKeyEncodingComponent → Prop
  | [p], c :: _ => BeginsValue p c
  | p :: q :: ps, c :: cs => SameValue p c ∧ MatchesPrefix (q :: ps) cs
  | _, _ => False

/-- The key is not before the lower bound and is before the upper one. -/
def IndexKeyPrefixBoundsResult.Contains (bounds : IndexKeyPrefixBoundsResult)
    (key : Bytes) : Prop :=
  (∃ order ≤ 0, compareEncodedIndexKeys bounds.lowerBound key = .ok order) ∧
  (bounds.upperBoundUnbounded = true ∨
    ∃ order < 0, compareEncodedIndexKeys key bounds.upperBound = .ok order)

/-! ### What the builder accepts and writes -/

theorem componentRefusal_renamed (h : componentRefusal code key c = none) :
    componentRefusal code' key' c = none := by
  simp only [componentRefusal, guard_eq_none_iff] at h ⊢
  exact h

theorem componentTime_renamed {time : Option Nat} (h : componentTime code key c = .ok time) :
    componentTime code' key' c = .ok time := by
  rw [componentTime] at h ⊢
  split at h
  · next hvalue =>
    rw [if_pos hvalue]
    obtain ⟨hvalid, h⟩ := guard_eq_ok_iff.mp h
    rw [if_neg hvalid]
    split at h
    · cases h
    · exact h
  · next hother =>
    rw [if_neg hother]
    exact h

theorem appendPrefixComponent_ok (h : appendPrefixComponent result c = .ok result') :
    result'.matcherPrefix = result.matcherPrefix ++ prefixComponent c ∧
      ∀ key, ∃ key', encodeComponent key c = .ok key' := by
  rw [appendPrefixComponent] at h
  split at h
  · cases h
  next haccepted =>
  obtain ⟨time, htime, h⟩ := bind_eq_ok_iff.mp h
  cases h
  refine ⟨rfl, fun key => ?_⟩
  rw [encodeComponent, componentRefusal_renamed haccepted]
  rw [componentTime_renamed htime]
  exact ⟨_, rfl⟩

theorem appendPrefixComponents_ok (h : ps.foldlM appendPrefixComponent result = .ok result') :
    result'.matcherPrefix = result.matcherPrefix ++ ps.flatMap prefixComponent ∧
      ∀ key, ∃ key', ps.foldlM encodeComponent key = .ok key' := by
  induction ps generalizing result with
  | nil =>
    cases h
    exact ⟨by simp, fun key => ⟨key, rfl⟩⟩
  | cons p ps ih =>
    obtain ⟨mid, hmid, hrest⟩ := bind_eq_ok_iff.mp h
    obtain ⟨hbytes, hencode⟩ := appendPrefixComponent_ok hmid
    obtain ⟨hall, hencodes⟩ := ih hrest
    refine ⟨?_, fun key => ?_⟩
    · rw [hall, hbytes, flatMap_cons, append_assoc]
    · obtain ⟨key', hkey'⟩ := hencode key
      obtain ⟨last, hlast⟩ := hencodes key'
      refine ⟨last, ?_⟩
      exact bind_eq_ok_iff.mpr ⟨key', hkey', hlast⟩

/-- The encoder accepts what the builder accepts. -/
theorem buildEncodedPrefixBounds_ok
    (h : buildEncodedPrefixBoundsInternal ps profile label = .ok bounds) :
    ps ≠ [] ∧ (∃ result, result.matcherPrefix =
          kOrderPreservingMagic ++ ps.flatMap prefixComponent ∧
        bounds = closePrefixBounds label result) ∧ ∃ key, encodeIndexKey ps profile = .ok key := by
  rw [buildEncodedPrefixBoundsInternal, guard_eq_ok_iff, guard_eq_ok_iff] at h
  obtain ⟨hnonempty, hstable, h⟩ := h
  obtain ⟨result, hresult, hclosed⟩ := map_eq_ok_iff.mp h
  obtain ⟨hbytes, hencode⟩ := appendPrefixComponents_ok hresult
  refine ⟨fun hnil => hnonempty (by rw [hnil]; rfl), ⟨result, hbytes, hclosed.symm⟩, ?_⟩
  rw [encodeIndexKey, if_neg hnonempty, if_neg hstable]
  exact hencode _

/-! ### The bounds -/

theorem compare_succ (x : UInt8) (h : x ≠ 0xff) : compare x (x + 1) = .lt := by
  rw [Std.compare_eq_lt]
  have hne : x.toNat ≠ 255 := fun htop => h (UInt8.toNat_inj.mp htop)
  have hlt := x.toNat_lt
  show x.toNat < (x.toNat + 1) % 256
  omega

theorem orderingSign_le_zero {o : Ordering} (h : o ≠ .gt) : orderingSign o ≤ 0 := by
  cases o with
  | lt => decide
  | eq => decide
  | gt => exact absurd rfl h

/-- A key that begins with the matcher lies between the bounds. -/
theorem contains_of_starts {body key : Bytes}
    (hbody : result.matcherPrefix = kOrderPreservingMagic ++ body)
    (h : result.matcherPrefix <+: key) : (closePrefixBounds label result).Contains key := by
  obtain ⟨rest, rfl⟩ := h
  rw [hbody, append_assoc]
  refine ⟨⟨_, orderingSign_le_zero (compare_append_ne_gt (p := body) (t := rest)), ?_⟩, ?_⟩
  · show compareEncodedIndexKeys result.matcherPrefix _ = _
    rw [hbody]
    exact compareEncodedIndexKeys_magic body (body ++ rest)
  · have hupper : advanceLexicographicUpperPrefix result.matcherPrefix =
        (advance 0xff (· + 1) body).map (kOrderPreservingMagic ++ ·) := by
      rw [hbody]
      rfl
    cases hadvance : advance (0xff : UInt8) (· + 1) body with
    | none =>
      refine .inl ?_
      show (advanceLexicographicUpperPrefix result.matcherPrefix).isNone = true
      rw [hupper, hadvance]
      rfl
    | some upper =>
      refine .inr ⟨-1, by decide, ?_⟩
      show compareEncodedIndexKeys _
        ((advanceLexicographicUpperPrefix result.matcherPrefix).getD []) = _
      rw [hupper, hadvance]
      show compareEncodedIndexKeys _ (kOrderPreservingMagic ++ upper) = _
      rw [compareEncodedIndexKeys_magic, compare_append_advance compare_succ hadvance]
      rfl

/-! ### The last component -/

theorem complement_prefix_iff {t : Bytes} :
    u.map (~~~ ·) <+: v.map (~~~ ·) ++ t ↔ u <+: v ++ t.map (~~~ ·) := by
  have htwice : ∀ w : Bytes, (w.map (~~~ ·)).map (~~~ ·) = w := by
    intro w
    rw [map_map]
    conv_rhs => rw [← map_id w]
    exact map_congr_left fun x _ => UInt8.not_not
  constructor
  · intro h
    have hmapped := h.map (~~~ ·)
    rwa [map_append, htwice, htwice] at hmapped
  · intro h
    have hmapped := h.map (~~~ ·)
    rwa [map_append, htwice] at hmapped

theorem comparablePayloadPrefix_iff (hsort : p.sortDirection = c.sortDirection) :
    comparablePayloadPrefixForSort p <+: comparablePayloadForSort c ++ rest ↔
      payloadForOrder p <+: payloadForOrder c := by
  rw [comparablePayloadPrefixForSort, comparablePayloadForSort,
    complementIfDescending, complementIfDescending, hsort]
  split
  · rw [complement_prefix_iff]
    exact escape_prefix_iff (by decide)
  · exact escape_prefix_iff (by decide)

theorem nullRankFor_eq_iff : nullRankFor c = kNonNullRank ↔ c.isNull = false := by
  rw [nullRankFor]
  cases c.isNull with
  | false => exact iff_of_true rfl rfl
  | true => cases c.nullPlacement <;> decide

/-- The rank tells a null from a value. -/
theorem isNull_of_rank (h : nullRankFor p = nullRankFor c) : p.isNull = c.isNull := by
  have hiff : p.isNull = false ↔ c.isNull = false := by
    rw [← nullRankFor_eq_iff, ← nullRankFor_eq_iff, h]
  rw [Bool.eq_iff_iff, ← Bool.not_eq_false, ← Bool.not_eq_false, hiff]

theorem SameColumn.rank (h : SameColumn p c) (hnull : p.isNull = c.isNull) :
    nullRankFor p = nullRankFor c := by
  rw [nullRankFor, nullRankFor, hnull, h.nullPlacement]

theorem prefixComponent_iff (h : SameColumn p c) :
    prefixComponent p <+: encodedComponent c ++ rest ↔ BeginsValue p c := by
  rw [prefixComponent, encodedComponent, cons_append, cons_prefix_cons]
  constructor
  · rintro ⟨hrank, hbytes⟩
    have hnull := isNull_of_rank hrank
    refine ⟨hnull, fun hvalue => ?_⟩
    rw [h.identity, append_assoc, prefix_append_right_inj, ← hnull, hvalue] at hbytes
    exact (comparablePayloadPrefix_iff (by
      rw [sortDirection_payloadComponent, sortDirection_payloadComponent,
        h.sortDirection])).mp hbytes
  · rintro ⟨hnull, hpayload⟩
    refine ⟨h.rank hnull, ?_⟩
    rw [h.identity, append_assoc, prefix_append_right_inj, ← hnull]
    cases hp : p.isNull with
    | true => exact List.nil_prefix
    | false =>
      exact (comparablePayloadPrefix_iff (by
        rw [sortDirection_payloadComponent, sortDirection_payloadComponent,
          h.sortDirection])).mpr (hpayload hp)

/-! ### The components before it -/

/-- A null is written the same way by both encoders. -/
theorem prefixComponent_null (h : p.isNull = true) : prefixComponent p = encodedComponent p := by
  rw [prefixComponent, encodedComponent, h]
  rfl

theorem encodedComponent_null (h : SameColumn p c) (hp : p.isNull = true)
    (hc : c.isNull = true) : encodedComponent p = encodedComponent c := by
  rw [encodedComponent, encodedComponent, h.identity, h.rank (hp.trans hc.symm), hp, hc]
  rfl

theorem rank_of_starts (h : prefixComponent p ++ u <+: encodedComponent c ++ rest) :
    nullRankFor p = nullRankFor c := by
  rw [prefixComponent, encodedComponent, cons_append, cons_append, cons_prefix_cons] at h
  exact h.1

theorem prefixComponents_iff (hnonempty : ps ≠ [])
    (hcols : List.Forall₂ SameColumn ps (cs.take ps.length))
    (hnull : ∀ p ∈ ps.dropLast, p.isNull = true) :
    ps.flatMap prefixComponent <+: cs.flatMap encodedComponent ↔ MatchesPrefix ps cs := by
  induction ps generalizing cs with
  | nil => exact absurd rfl hnonempty
  | cons p ps ih =>
    cases cs with
    | nil => cases hcols
    | cons c cs =>
      rw [length_cons, List.take_succ_cons, List.forall₂_cons] at hcols
      obtain ⟨hcol, hcols⟩ := hcols
      rw [flatMap_cons, flatMap_cons]
      cases ps with
      | nil =>
        rw [flatMap_nil, append_nil]
        exact prefixComponent_iff hcol
      | cons q ps =>
        rw [List.dropLast_cons_cons, forall_mem_cons] at hnull
        obtain ⟨hp, hnull⟩ := hnull
        have hrest := ih (by simp) hcols hnull
        constructor
        · intro h
          have hc := (isNull_of_rank (rank_of_starts h)).symm.trans hp
          rw [prefixComponent_null hp, encodedComponent_null hcol hp hc,
            prefix_append_right_inj] at h
          exact ⟨⟨hp.trans hc.symm, fun hvalue => by simp [hp] at hvalue⟩, hrest.mp h⟩
        · rintro ⟨⟨hboth, -⟩, hmatches⟩
          rw [prefixComponent_null hp, encodedComponent_null hcol hp (hboth.symm.trans hp),
            prefix_append_right_inj]
          exact hrest.mpr hmatches

/-- The code of a component's kind, in four bytes, ends in the only one that is
not zero. -/
theorem identity_begin (c : IndexKeyEncodingComponent) :
    ∃ code tail, code ≠ 0 ∧ componentDescriptorIdentity c = 0 :: 0 :: 0 :: code :: tail := by
  rw [componentDescriptorIdentity]
  cases c.kind <;> exact ⟨_, _, by decide, rfl⟩

/-- Closing bytes where the matcher has the next component's rank. -/
theorem not_closed_prefix {q : IndexKeyEncodingComponent} {close : UInt8} :
    ¬prefixComponent q ++ u <+: close :: close :: (encodedComponent q ++ v) := by
  obtain ⟨code, tail, hcode, hidentity⟩ := identity_begin q
  rw [prefixComponent, encodedComponent, hidentity]
  simp only [cons_append, cons_prefix_cons]
  rintro ⟨hrank, hclose, hfirst, -, hsecond, -⟩
  exact hcode hsecond

theorem comparablePayload_closed (c : IndexKeyEncodingComponent) :
    ∃ close, comparablePayloadForSort c = comparablePayloadPrefixForSort c ++ [close, close] := by
  rw [comparablePayloadForSort, comparablePayloadPrefixForSort, complementIfDescending,
    complementIfDescending]
  split
  · exact ⟨0xff, map_append⟩
  · exact ⟨0x00, rfl⟩

/-- A prefix that finds itself has no value before its last component. -/
theorem null_of_finds_itself (h : ps.flatMap prefixComponent <+: ps.flatMap encodedComponent) :
    ∀ p ∈ ps.dropLast, p.isNull = true := by
  induction ps with
  | nil => exact forall_mem_nil _
  | cons p ps ih =>
    cases ps with
    | nil => exact forall_mem_nil _
    | cons q ps =>
      rw [flatMap_cons (f := prefixComponent), flatMap_cons (f := encodedComponent)] at h
      rw [List.dropLast_cons_cons, forall_mem_cons]
      cases hp : p.isNull with
      | true =>
        rw [prefixComponent_null hp, prefix_append_right_inj] at h
        exact ⟨rfl, ih h⟩
      | false =>
        obtain ⟨close, hclose⟩ := comparablePayload_closed (payloadComponent p)
        rw [prefixComponent, encodedComponent, hp, hclose] at h
        simp only [Bool.false_eq_true, if_false, cons_append,
          append_assoc, cons_prefix_cons, prefix_append_right_inj, true_and] at h
        exact absurd h not_closed_prefix

/-! ### The selection -/

theorem sameColumn_refl (c : IndexKeyEncodingComponent) : SameColumn c c :=
  ⟨rfl, rfl, rfl, rfl, rfl, rfl⟩

theorem matchesPrefix_self (h : ps ≠ []) : MatchesPrefix ps ps := by
  induction ps with
  | nil => exact absurd rfl h
  | cons p ps ih =>
    cases ps with
    | nil => exact ⟨rfl, fun _ => List.prefix_rfl⟩
    | cons q ps => exact ⟨⟨rfl, fun _ => rfl⟩, ih (by simp)⟩

/-- The bounds and the matcher select the keys the prefix stands for exactly when
no component before the last has a value. -/
theorem prefix_bounds_select_iff (ps : List IndexKeyEncodingComponent)
    (profile : IndexKeySemanticProfile) (label : String) (bounds : IndexKeyPrefixBoundsResult)
    (hbounds : buildEncodedPrefixBoundsInternal ps profile label = .ok bounds) :
    (∀ (cs : List IndexKeyEncodingComponent)
        (keyProfile : IndexKeySemanticProfile) (key : IndexKeyEncodingResult),
      encodeIndexKey cs keyProfile = .ok key → List.Forall₂ SameColumn ps (cs.take ps.length) →
      ((bounds.Contains key.encoded ∧ bounds.matcherPrefix <+: key.encoded) ↔
        MatchesPrefix ps cs)) ↔ ∀ p ∈ ps.dropLast, p.isNull = true := by
  obtain ⟨hnonempty, ⟨result, hmatcher, rfl⟩, own, hown⟩ := buildEncodedPrefixBounds_ok hbounds
  have hselect : ∀ {cs keyProfile key}, encodeIndexKey cs keyProfile = .ok key →
      (((closePrefixBounds label result).Contains key.encoded ∧
          (closePrefixBounds label result).matcherPrefix <+: key.encoded) ↔
        ps.flatMap prefixComponent <+: cs.flatMap encodedComponent) := by
    intro cs keyProfile key hkey
    have hiff : result.matcherPrefix <+: key.encoded ↔
        ps.flatMap prefixComponent <+: cs.flatMap encodedComponent := by
      rw [hmatcher, (encodeIndexKey_ok hkey).2, prefix_append_right_inj]
    exact ⟨fun h => hiff.mp h.2, fun h => ⟨contains_of_starts hmatcher (hiff.mpr h), hiff.mpr h⟩⟩
  constructor
  · intro hall
    have hself : List.Forall₂ SameColumn ps (ps.take ps.length) := by
      rw [List.take_length]
      exact List.forall₂_same.mpr fun c _ => sameColumn_refl c
    exact null_of_finds_itself ((hselect hown).mp
      ((hall ps profile own hown hself).mpr (matchesPrefix_self hnonempty)))
  · intro hnull cs keyProfile key hkey hcols
    exact (hselect hkey).trans (prefixComponents_iff hnonempty hcols hnull)

theorem single_prefix_selects :
    ∃ bounds, buildEncodedPrefixBoundsInternal [sampleComponent [0x61, 0x00] false] {}
        "matcher" = .ok bounds ∧
      ∀ cs keyProfile key, encodeIndexKey cs keyProfile = .ok key →
        List.Forall₂ SameColumn [sampleComponent [0x61, 0x00] false] (cs.take 1) →
        ((bounds.Contains key.encoded ∧ bounds.matcherPrefix <+: key.encoded) ↔
          MatchesPrefix [sampleComponent [0x61, 0x00] false] cs) :=
  ⟨_, rfl, (prefix_bounds_select_iff [sampleComponent [0x61, 0x00] false] {}
    "matcher" _ rfl).mpr (by decide)⟩

/-- A prefix of two values does not find the key of the same two values: the key
comes before the lower bound. -/
theorem two_values_not_found :
    ∃ bounds key, buildEncodedPrefixBoundsInternal
        [sampleComponent [0x61] false, sampleComponent [0x62] false] {} "matcher" = .ok bounds ∧
      encodeIndexKey [sampleComponent [0x61] false, sampleComponent [0x62] false] {} = .ok key ∧
      List.Forall₂ SameColumn [sampleComponent [0x61] false, sampleComponent [0x62] false]
        ([sampleComponent [0x61] false, sampleComponent [0x62] false].take 2) ∧
      MatchesPrefix [sampleComponent [0x61] false, sampleComponent [0x62] false]
        [sampleComponent [0x61] false, sampleComponent [0x62] false] ∧
      compareEncodedIndexKeys bounds.lowerBound key.encoded = .ok 1 ∧
      ¬bounds.matcherPrefix <+: key.encoded :=
  ⟨_, _, rfl, rfl, .cons (sameColumn_refl _) (.cons (sameColumn_refl _) .nil),
    matchesPrefix_self (by simp), by decide, by decide⟩

end ScratchBird.Index
